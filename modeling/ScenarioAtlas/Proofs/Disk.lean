import Mathlib.Data.List.Nodup
import ScenarioAtlas.Disk

/-!
# Files in a tree of folders

A tree without links is gone through by recursion on the tree itself, leaving out what is below an
ignored folder. This finds every file once: the names that lead to it are found if and only if none
of the folders on the way has an ignored name. The name of the file itself does not count, nor does
the folder that the tree is.
-/

namespace ScenarioAtlas.DiskNode

set_option autoImplicit false

def IsName (name : String) : Prop := name ≠ "" ∧ '/' ∉ name.toList

instance (name : String) : Decidable (IsName name) := inferInstanceAs (Decidable (_ ∧ _))

mutual

/-- Whether a tree has no links, and no folder with two entries of one name. -/
def IsPlain : DiskNode → Prop
  | file _ => True
  | folder entries => ArePlain entries
  | link _ => False

def ArePlain : List (String × DiskNode) → Prop
  | [] => True
  | (name, node) :: rest =>
    IsName name ∧ name ∉ rest.map Prod.fst ∧ IsPlain node ∧ ArePlain rest

end

def holdsFile (node : DiskNode) (names : List String) : Bool :=
  match node.at? names with
  | some (file _) => true
  | _ => false

mutual

/-- The files that a name leads to, be it their own or that of a folder above them. -/
def filesUnder (ignored : List String) (name : String) : DiskNode → List (List String)
  | file _ => [[name]]
  | folder entries => if name ∈ ignored then [] else (filesIn ignored entries).map (name :: ·)
  | link _ => []

/-- The files in a folder and below, each as the names that lead to it. Folders with an ignored name
are passed over. -/
def filesIn (ignored : List String) : List (String × DiskNode) → List (List String)
  | [] => []
  | (name, node) :: rest => filesUnder ignored name node ++ filesIn ignored rest

end

variable {ignored : List String} {entries : List (String × DiskNode)}

theorem filesIn_eq_flatMap (ignored : List String) (entries : List (String × DiskNode)) :
    filesIn ignored entries = entries.flatMap fun entry => filesUnder ignored entry.1 entry.2 := by
  induction entries with
  | nil => rfl
  | cons entry rest ih => rw [filesIn, ih, List.flatMap_cons]

theorem ArePlain.of_mem (h : ArePlain entries) {entry : String × DiskNode}
    (hentry : entry ∈ entries) : IsName entry.1 ∧ IsPlain entry.2 := by
  induction entries with
  | nil => cases hentry
  | cons first rest ih =>
    obtain ⟨hname, -, hfirst, hrest⟩ := h
    rcases List.mem_cons.mp hentry with rfl | hentry
    · exact ⟨hname, hfirst⟩
    · exact ih hrest hentry

section Sizes

theorem size_lt_sizes {entry : String × DiskNode} (hentry : entry ∈ entries) :
    entry.2.size < sizes entries := by
  induction entries with
  | nil => cases hentry
  | cons first rest ih =>
    rw [sizes]
    rcases List.mem_cons.mp hentry with rfl | hentry
    · omega
    · have hlt := ih hentry
      omega

theorem size_le_of_at? {node below : DiskNode} {names : List String}
    (h : node.at? names = some below) : below.size ≤ node.size := by
  induction names generalizing node with
  | nil =>
    cases h
    exact Nat.le_refl _
  | cons name names ih =>
    cases node with
    | file content => cases h
    | link target => cases h
    | folder entries =>
      obtain ⟨next, hnext, hbelow⟩ := Option.bind_eq_some_iff.mp h
      obtain ⟨before, after, rfl, -⟩ := List.lookup_eq_some_iff.mp hnext
      have hentry : (name, next) ∈ before ++ (name, next) :: after := by simp
      exact Nat.le_trans (ih hbelow) (Nat.le_of_lt (size_lt_sizes hentry))

end Sizes

section Found

theorem holdsFile_cons (entries : List (String × DiskNode)) (name : String) (names : List String) :
    (folder entries).holdsFile (name :: names) =
      (entries.lookup name).any (·.holdsFile names) := by
  cases hlookup : entries.lookup name <;> simp [holdsFile, at?, hlookup]

theorem head?_of_mem_filesUnder {name : String} {node : DiskNode} {names : List String}
    (h : names ∈ filesUnder ignored name node) : names.head? = some name := by
  cases node with
  | file content =>
    rw [filesUnder, List.mem_singleton] at h
    rw [h, List.head?_cons]
  | folder entries =>
    rw [filesUnder] at h
    split at h
    case isTrue => cases h
    case isFalse =>
      obtain ⟨rest, -, rfl⟩ := List.mem_map.mp h
      rfl
  | link target => cases h

theorem holdsFile_folder_nil (entries : List (String × DiskNode)) :
    (folder entries).holdsFile [] = false := rfl

mutual

theorem cons_mem_filesUnder_iff {name : String} {names : List String} :
    ∀ (node : DiskNode), node.IsPlain → (name :: names ∈ filesUnder ignored name node ↔
      node.holdsFile names = true ∧ ∀ above ∈ (name :: names).dropLast, above ∉ ignored)
  | file content, _ => by
    cases names with
    | nil => simp [filesUnder, holdsFile, at?]
    | cons next names => simp [filesUnder, holdsFile, at?]
  | folder entries, h => by
    have hbelow : name :: names ∈ filesUnder ignored name (folder entries) ↔
        name ∉ ignored ∧ names ∈ filesIn ignored entries := by
      rw [filesUnder]
      split
      case isTrue hname => simp [hname]
      case isFalse hname => simp [hname]
    rw [hbelow, mem_filesIn_iff entries h]
    cases names with
    | nil => simp [holdsFile_folder_nil]
    | cons next names =>
      rw [List.dropLast_cons_cons, List.forall_mem_cons]
      exact and_left_comm
  | link target, h => h.elim

theorem mem_filesIn_iff {names : List String} :
    ∀ (entries : List (String × DiskNode)), ArePlain entries →
      (names ∈ filesIn ignored entries ↔
        (folder entries).holdsFile names = true ∧ ∀ above ∈ names.dropLast, above ∉ ignored)
  | [], _ => by
    cases names <;> simp [filesIn, holdsFile, at?]
  | (name, node) :: rest, h => by
    obtain ⟨-, hname, hnode, hrest⟩ := h
    rw [filesIn, List.mem_append, mem_filesIn_iff rest hrest]
    cases names with
    | nil =>
      have hnone : [] ∉ filesUnder ignored name node := by
        intro hmem
        cases head?_of_mem_filesUnder hmem
      simp [hnone, holdsFile_folder_nil]
    | cons first names =>
      by_cases hfirst : first = name
      · subst hfirst
        have hother : rest.lookup first = none := by
          rw [List.lookup_eq_none_iff]
          intro entry hentry
          simpa using fun heq : first = entry.1 => hname (heq ▸ List.mem_map_of_mem hentry)
        rw [cons_mem_filesUnder_iff node hnode]
        simp [holdsFile_cons, hother]
      · have hnone : first :: names ∉ filesUnder ignored name node := by
          intro hmem
          exact hfirst (Option.some.inj (head?_of_mem_filesUnder hmem))
        have hother : ((name, node) :: rest).lookup first = rest.lookup first := by
          rw [List.lookup_cons, beq_false_of_ne hfirst]
        simp only [hnone, false_or, holdsFile_cons, hother]

end

theorem exists_head?_of_mem_filesIn {names : List String} (h : names ∈ filesIn ignored entries) :
    ∃ name ∈ entries.map Prod.fst, names.head? = some name := by
  rw [filesIn_eq_flatMap, List.mem_flatMap] at h
  obtain ⟨entry, hentry, hnames⟩ := h
  exact ⟨entry.1, List.mem_map_of_mem hentry, head?_of_mem_filesUnder hnames⟩

mutual

theorem nodup_filesUnder (name : String) :
    ∀ (node : DiskNode), node.IsPlain → (filesUnder ignored name node).Nodup
  | file _, _ => by simp [filesUnder]
  | folder entries, h => by
    rw [filesUnder]
    split
    case isTrue => exact List.nodup_nil
    case isFalse => exact List.Nodup.map List.cons_injective (nodup_filesIn entries h)
  | link _, h => h.elim

/-- No file is found twice. -/
theorem nodup_filesIn : ∀ (entries : List (String × DiskNode)), ArePlain entries →
    (filesIn ignored entries).Nodup
  | [], _ => List.nodup_nil
  | (name, node) :: rest, h => by
    obtain ⟨-, hname, hnode, hrest⟩ := h
    rw [filesIn]
    refine (nodup_filesUnder name node hnode).append (nodup_filesIn rest hrest) ?_
    intro names hunder hin
    obtain ⟨other, hother, hhead⟩ := exists_head?_of_mem_filesIn hin
    rw [head?_of_mem_filesUnder hunder] at hhead
    exact hname (Option.some.inj hhead ▸ hother)

end

theorem isName_of_holdsFile {node : DiskNode} {names : List String} (hplain : node.IsPlain)
    (h : node.holdsFile names = true) : ∀ name ∈ names, IsName name := by
  induction names generalizing node with
  | nil => nofun
  | cons first names ih =>
    cases node with
    | file content => cases h
    | link target => cases h
    | folder entries =>
      rw [holdsFile_cons, Option.any_eq_true] at h
      obtain ⟨next, hnext, hfile⟩ := h
      obtain ⟨before, after, hentries, -⟩ := List.lookup_eq_some_iff.mp hnext
      have hentry : (first, next) ∈ entries := by simp [hentries]
      have hentries : ArePlain entries := hplain
      obtain ⟨hname, hnode⟩ := hentries.of_mem hentry
      exact List.forall_mem_cons.mpr ⟨hname, ih hnode hfile⟩

end Found

end ScenarioAtlas.DiskNode

namespace ScenarioAtlas.Disk

variable {disk : Disk} {path : String} {names : List String} {found : DiskNode}

theorem node_eq_ok_iff :
    disk.node path = .ok found ↔
      ∃ names, disk.destination path = .ok names ∧ disk.root.at? names = some found := by
  unfold node
  cases disk.destination path with
  | error fault => simp [bind, Except.bind]
  | ok names => cases hat : disk.root.at? names <;> simp [bind, Except.bind, pure, Except.pure, hat]

theorem resolve_of_at? (h : disk.destination path = .ok names)
    (hat : disk.root.at? names = some found) : disk.resolve path = .ok names := by
  simp [resolve, h, hat, bind, Except.bind, pure, Except.pure]

end ScenarioAtlas.Disk
