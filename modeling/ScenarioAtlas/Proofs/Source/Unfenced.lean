import Mathlib.Data.List.Induction
import ScenarioAtlas.Source.Kind
import ScenarioAtlas.Source.Row

/-!
# Lines outside of doc strings

Which lines of a file count: those that are neither inside a doc string nor the one that closes it.
What a counted line is good for depends on its kind, on the tags that stand above it and on the
block that it is in, and all three are read off the list of counted lines here. The numbers of
counted lines go up, and none is beyond the end of the text.
-/

namespace ScenarioAtlas

set_option autoImplicit false

namespace LineKind

def isFeature : LineKind → Bool
  | feature _ => true
  | _ => false

def isExamples : LineKind → Bool
  | examples _ => true
  | _ => false

def startsBlock : LineKind → Bool
  | rule _ | background | scenario _ | outline _ => true
  | _ => false

/-- Whether the tags above a line of this kind reach no line below it. -/
def partsTags : LineKind → Bool
  | comment | tags _ | row | fence _ => false
  | _ => true

def ownTags : LineKind → List String
  | tags own => own
  | _ => []

def opening? : LineKind → Option Fence
  | fence mark => some mark
  | _ => none

theorem partsTags_of_startsBlock {kind : LineKind} (h : kind.startsBlock = true) :
    kind.partsTags = true := by
  cases kind <;> simp_all [startsBlock, partsTags]

end LineKind

namespace Line

/-- The counted lines among the given ones, the first of which is inside a doc string if a fence is
given. A doc string goes on up to a line that starts with its own fence. -/
def unfenced : Option Fence → List Line → List Line
  | _, [] => []
  | none, line :: rest => line :: unfenced line.kind.opening? rest
  | some mark, line :: rest =>
    if mark.text.isPrefixOf line.trimmed then unfenced none rest else unfenced (some mark) rest

/-- The counted lines of a text. -/
def counted (text : String) : List Line := unfenced none (scan text)

/-- The tags on the lines straight above a place, given all lines above it. -/
def tagsAbove (above : List Line) : List String :=
  (above.reverse.takeWhile (!·.kind.partsTags)).reverse.flatMap (·.kind.ownTags)

/-- The lines of the block whose header stands above the given lines. -/
def body (below : List Line) : List Line := below.takeWhile (!·.kind.startsBlock)

def upToTable (below : List Line) : List Line := below.takeWhile (!·.kind.isExamples)

def stepTexts (lines : List Line) : List String :=
  (lines.filter (·.kind = .step)).map fun line => String.ofList line.trimmed

/-- What the given lines stand for one after the other, where `f` tells it for a line from the lines
above it and those below. -/
def collect {β : Type} (f : List Line → Line → List Line → List β) (above : List Line) :
    List Line → List β
  | [] => []
  | line :: rest => f above line rest ++ collect f (above ++ [line]) rest

/-- The cells of a table row, where the line is one and its last cell is closed. -/
def cells? (line : Line) : Option (List String) :=
  if line.kind = .row then (Row.split? line.trimmed).map (·.map String.ofList) else none

theorem kind_of_isPrefixOf {mark : Fence} {line : Line}
    (h : mark.text.isPrefixOf line.trimmed = true) : line.kind = .fence mark := by
  obtain ⟨rest, hrest⟩ := List.isPrefixOf_iff_prefix.mp h
  rw [kind, ← hrest]
  cases mark <;> simp [LineKind.classify, LineKind.fence?, Fence.text]

theorem cells?_eq_none {line : Line} (h : line.kind ≠ .row) : line.cells? = none := by
  simp [cells?, h]

theorem stepTexts_cons {line : Line} (h : line.kind ≠ .step) (lines : List Line) :
    stepTexts (line :: lines) = stepTexts lines := by
  simp [stepTexts, h]

theorem unfenced_sublist (fence : Option Fence) (lines : List Line) :
    (unfenced fence lines).Sublist lines := by
  induction lines generalizing fence with
  | nil => simp [unfenced]
  | cons line rest ih =>
    cases fence with
    | none => exact (ih _).cons_cons line
    | some mark =>
      simp only [unfenced]
      split
      · exact (ih none).cons line
      · exact (ih (some mark)).cons line

theorem number_of_mem_numberFrom {first : Nat} {raws : List (List Char)} {line : Line}
    (h : line ∈ numberFrom first raws) :
    first ≤ line.number ∧ line.number < first + raws.length := by
  induction raws generalizing first with
  | nil => simp [numberFrom] at h
  | cons raw rest ih =>
    rcases List.mem_cons.mp h with rfl | h
    · exact ⟨Nat.le_refl _, by simp⟩
    · obtain ⟨hfirst, hlast⟩ := ih h
      rw [List.length_cons]
      omega

theorem numberFrom_ascending (first : Nat) (raws : List (List Char)) :
    (numberFrom first raws).Pairwise (·.number < ·.number) := by
  induction raws generalizing first with
  | nil => exact .nil
  | cons raw rest ih =>
    refine .cons ?_ (ih (first + 1))
    intro line hline
    obtain ⟨hfirst, -⟩ := number_of_mem_numberFrom hline
    dsimp only
    omega

theorem counted_ascending (text : String) : (counted text).Pairwise (·.number < ·.number) :=
  (numberFrom_ascending 1 _).sublist (unfenced_sublist none _)

theorem counted_split {text : String} {above below : List Line} {line : Line}
    (h : counted text = above ++ line :: below) :
    (∀ other ∈ above, other.number < line.number) ∧
      (line :: below).Pairwise (·.number < ·.number) := by
  have hascending := counted_ascending text
  rw [h] at hascending
  obtain ⟨-, hbelow, hcross⟩ := List.pairwise_append.mp hascending
  exact ⟨fun other hother => hcross other hother line List.mem_cons_self, hbelow⟩

theorem number_le_of_mem_counted {text : String} {line : Line} (h : line ∈ counted text) :
    line.number ≤ (scan text).length := by
  have hscan : line ∈ scan text := (unfenced_sublist none _).subset h
  obtain ⟨-, hlast⟩ := number_of_mem_numberFrom hscan
  rw [scan, length_numberFrom]
  omega

theorem tagsAbove_nil : tagsAbove [] = [] := rfl

/-- One more line keeps the tags above it and adds its own, or parts them from what follows. -/
theorem tagsAbove_concat (above : List Line) (line : Line) :
    tagsAbove (above ++ [line]) =
      if line.kind.partsTags then [] else tagsAbove above ++ line.kind.ownTags := by
  simp only [tagsAbove, List.reverse_append, List.reverse_singleton, List.singleton_append,
    List.takeWhile_cons]
  cases line.kind.partsTags <;> simp

/-- Tags do not pass a line that parts them, so nothing above it matters. -/
theorem tagsAbove_append_cons {line : Line} (h : line.kind.partsTags = true)
    (above lines : List Line) : tagsAbove (above ++ line :: lines) = tagsAbove lines := by
  induction lines using List.reverseRecOn with
  | nil => simp [tagsAbove_concat, tagsAbove_nil, h]
  | append_singleton lines last ih =>
    rw [← List.cons_append, ← List.append_assoc, tagsAbove_concat, tagsAbove_concat, ih]

section Collect

variable {β : Type} {f : List Line → Line → List Line → List β} {above lines : List Line}

theorem mem_collect_iff {b : β} :
    b ∈ collect f above lines ↔
      ∃ before line after, lines = before ++ line :: after ∧ b ∈ f (above ++ before) line after := by
  induction lines generalizing above with
  | nil => simp [collect]
  | cons first rest ih =>
    simp only [collect, List.mem_append, ih]
    constructor
    · rintro (h | ⟨before, line, after, rfl, h⟩)
      · exact ⟨[], first, rest, rfl, by simpa using h⟩
      · exact ⟨first :: before, line, after, rfl, by simpa using h⟩
    · rintro ⟨before, line, after, heq, h⟩
      cases before with
      | nil =>
        obtain ⟨rfl, rfl⟩ := List.cons.inj heq
        exact Or.inl (by simpa using h)
      | cons second before =>
        obtain ⟨rfl, rfl⟩ := List.cons.inj heq
        exact Or.inr ⟨before, line, after, rfl, by simpa using h⟩

theorem infix_collect (f : List Line → Line → List Line → List β) (above before : List Line)
    (line : Line) (after : List Line) :
    f (above ++ before) line after <:+: collect f above (before ++ line :: after) := by
  induction before generalizing above with
  | nil =>
    rw [List.append_nil]
    exact (List.prefix_append _ _).isInfix
  | cons first before ih =>
    have htail := ih (above ++ [first])
    rw [List.append_assoc, List.singleton_append] at htail
    exact htail.trans (List.suffix_append _ _).isInfix

theorem filter_collect_eq_nil {p : β → Bool}
    (h : ∀ line ∈ lines, ∀ above below, (f above line below).filter p = []) :
    (collect f above lines).filter p = [] := by
  induction lines generalizing above with
  | nil => rfl
  | cons line rest ih =>
    rw [collect, List.filter_append, h line List.mem_cons_self, List.nil_append]
    exact ih fun other hother => h other (List.mem_cons_of_mem line hother)

theorem filter_collect {p : β → Bool} {before after : List Line} {line : Line}
    (h : ∀ other ∈ before ++ after, ∀ above below, (f above other below).filter p = []) :
    (collect f above (before ++ line :: after)).filter p =
      (f (above ++ before) line after).filter p := by
  induction before generalizing above with
  | nil =>
    rw [List.nil_append] at h ⊢
    rw [collect, List.filter_append, filter_collect_eq_nil h, List.append_nil, List.append_nil]
  | cons first before ih =>
    rw [List.cons_append, collect, List.filter_append, h first List.mem_cons_self,
      ih fun other hother => h other (List.mem_cons_of_mem first hother)]
    simp

end Collect

theorem body_cons_of_startsBlock {line : Line} (h : line.kind.startsBlock = true)
    (below : List Line) : body (line :: below) = [] := by
  simp [body, h]

theorem body_cons {line : Line} (h : line.kind.startsBlock = false) (below : List Line) :
    body (line :: below) = line :: body below := by
  simp [body, h]

/-- What the headers of blocks stand for, each at its own line or in its own block, comes in the
order of the lines, one on a line at most, also if some of the first block is still due. -/
theorem collect_lines_sublist {β : Type} {f : List Line → Line → List Line → List β}
    (place : β → Nat)
    (hnone : ∀ above line below, line.kind.startsBlock = false → f above line below = [])
    (hblock : ∀ above line below,
      ((f above line below).map place).Sublist (line.number :: (body below).map number))
    {due : List Nat} (above : List Line) {below : List Line}
    (hdue : due.Sublist ((body below).map number)) :
    (due ++ (collect f above below).map place).Sublist (below.map number) := by
  induction below generalizing above due with
  | nil =>
    obtain rfl : due = [] := by simpa [body] using hdue
    exact .slnil
  | cons line rest ih =>
    rw [collect, List.map_append, List.map_cons]
    cases hstarts : line.kind.startsBlock with
    | false =>
      rw [hnone _ _ _ hstarts, List.map_nil, List.nil_append]
      rw [body_cons hstarts, List.map_cons] at hdue
      cases hdue with
      | cons _ hrest => exact (ih _ hrest).cons _
      | cons_cons _ hrest => exact (ih _ hrest).cons_cons _
    | true =>
      obtain rfl : due = [] := by simpa [body_cons_of_startsBlock hstarts] using hdue
      rw [List.nil_append]
      have hown := hblock above line rest
      generalize (f above line rest).map place = places at hown
      cases hown with
      | cons _ hrest => exact (ih _ hrest).cons _
      | cons_cons _ hrest => exact (ih _ hrest).cons_cons _

theorem upToTable_cons {line : Line} (h : line.kind.isExamples = false) (below : List Line) :
    upToTable (line :: below) = line :: upToTable below := by
  simp [upToTable, h]

theorem upToTable_cons_of_isExamples {line : Line} (h : line.kind.isExamples = true)
    (below : List Line) : upToTable (line :: below) = [] := by
  simp [upToTable, h]

end Line

end ScenarioAtlas
