import ScenarioAtlas.Proofs.Feature.Reading

/-!
# Doc strings

Nothing inside a doc string counts, whatever it looks like: only the line that closes it is looked
for. So two files that differ inside their doc strings alone are read alike, down to the issues. A
doc string that is never closed goes on to the end of the file.
-/

namespace ScenarioAtlas

set_option autoImplicit false

namespace Line

/-- The fence of the doc string that is open below a line, given the one that is open above it. -/
def fenceAfter : Option Fence → Line → Option Fence
  | none, line => line.kind.opening?
  | some mark, line => if mark.text.isPrefixOf line.trimmed then none else some mark

def openFence (lines : List Line) : Option Fence := lines.foldl fenceAfter none

/-- Whether a line, given the lines above it, is inside a doc string with the given fence: below the
line that opens the doc string, and neither a line in between nor the line itself closes it. -/
def IsInside (mark : Fence) (above : List Line) (line : Line) : Prop :=
  ∃ before opener between, above = before ++ opener :: between ∧ openFence before = none ∧
    opener.kind = .fence mark ∧ ∀ inner ∈ between ++ [line], ¬ mark.text <+: inner.trimmed

theorem fenceAfter_of_not_prefix {mark : Fence} {line : Line} (h : ¬ mark.text <+: line.trimmed) :
    fenceAfter (some mark) line = some mark := by
  rw [fenceAfter, if_neg]
  rwa [List.isPrefixOf_iff_prefix]

theorem openFence_concat (lines : List Line) (line : Line) :
    openFence (lines ++ [line]) = fenceAfter (openFence lines) line := by
  simp [openFence]

theorem IsInside.openFence_eq {mark : Fence} {above : List Line} {line : Line}
    (h : IsInside mark above line) : openFence above = some mark := by
  obtain ⟨before, opener, between, rfl, hbefore, hopener, hinner⟩ := h
  induction between using List.reverseRecOn with
  | nil => rw [openFence_concat, hbefore, fenceAfter, hopener, LineKind.opening?]
  | append_singleton between last ih =>
    have hbetween : openFence (before ++ opener :: between) = some mark := by
      apply ih
      intro inner hmem
      rcases List.mem_append.mp hmem with hmem | hmem
      · exact hinner inner (by simp [hmem])
      · exact hinner inner (List.mem_append_right _ hmem)
    rw [← List.cons_append, ← List.append_assoc, openFence_concat, hbetween]
    exact fenceAfter_of_not_prefix (hinner last (by simp))

theorem IsInside.not_prefix {mark : Fence} {above : List Line} {line : Line}
    (h : IsInside mark above line) : ¬ mark.text <+: line.trimmed := by
  obtain ⟨_, _, _, _, _, _, hinner⟩ := h
  exact hinner line (by simp)

theorem map_number_numberFrom (first : Nat) (raws : List (List Char)) :
    (numberFrom first raws).map number = List.range' first raws.length := by
  induction raws generalizing first with
  | nil => rfl
  | cons raw rest ih => rw [numberFrom, List.map_cons, ih, List.length_cons, List.range'_succ]

end Line

open Line

namespace Draft

variable (naming : Naming) (path : String) {draft : Draft}

theorem feed_congr (draft : Draft) {line other : Line} (hnumber : line.number = other.number)
    (htrimmed : line.trimmed = other.trimmed) :
    draft.feed naming path line = draft.feed naming path other := by
  have hkind : line.kind = other.kind := congrArg LineKind.classify htrimmed
  simp only [feed, feedOpen, hnumber, htrimmed, hkind]

theorem feed_docString (draft : Draft) (line : Line) :
    (draft.feed naming path line).docString.map Prod.fst =
      fenceAfter (draft.docString.map Prod.fst) line := by
  unfold feed
  cases hdoc : draft.docString with
  | none =>
    rw [feedOpen_docString, hdoc, Option.map_none, fenceAfter]
    cases line.kind.opening? <;> rfl
  | some opened =>
    dsimp only [Option.map_some, fenceAfter]
    split
    · rfl
    · rw [hdoc]
      rfl

theorem feed_inside {mark : Fence} (hdoc : draft.docString.map Prod.fst = some mark) {line : Line}
    (h : ¬ mark.text <+: line.trimmed) : draft.feed naming path line = draft := by
  obtain ⟨⟨own, opened⟩, hown, rfl⟩ := Option.map_eq_some_iff.mp hdoc
  rw [← List.isPrefixOf_iff_prefix] at h
  unfold feed
  rw [hown]
  exact if_neg h

/-- Lines that differ only inside doc strings are fed alike. What has been read above them tells of
a doc string no more than its fence. -/
theorem foldl_feed_congr {above rest others : List Line}
    (hfence : draft.docString.map Prod.fst = openFence above)
    (hnumbers : rest.map number = others.map number)
    (hsame : ∀ k, ∀ line ∈ rest[k]?, ∀ other ∈ others[k]?,
      line.trimmed = other.trimmed ∨
        ∃ mark, IsInside mark (above ++ rest.take k) line ∧ ¬ mark.text <+: other.trimmed) :
    rest.foldl (feed naming path) draft = others.foldl (feed naming path) draft := by
  induction rest generalizing draft above others with
  | nil =>
    rw [List.map_eq_nil_iff.mp hnumbers.symm]
  | cons line rest ih =>
    cases others with
    | nil => cases hnumbers
    | cons other others =>
      obtain ⟨hnumber, hnumbers⟩ := List.cons.inj hnumbers
      have hfeed : draft.feed naming path line = draft.feed naming path other := by
        rcases hsame 0 line rfl other rfl with htrimmed | ⟨mark, hinside, hother⟩
        · exact feed_congr naming path draft hnumber htrimmed
        · rw [List.take_zero, List.append_nil] at hinside
          have hopen := hfence.trans hinside.openFence_eq
          rw [feed_inside naming path hopen hinside.not_prefix,
            feed_inside naming path hopen hother]
      rw [List.foldl_cons, List.foldl_cons, ← hfeed]
      apply ih
      · rw [feed_docString, hfence, openFence_concat]
      · exact hnumbers
      · intro k next hnext found hfound
        have htail := hsame (k + 1) next hnext found hfound
        rwa [List.take_succ_cons, List.append_cons] at htail

end Draft

/-- What stands inside doc strings has no part in what is read. Two texts with as many lines are
read alike, the feature and the issues, if each line is the same in both but for the blanks around it, or
is inside a doc string and does not close it in the other text either. -/
theorem Feature.read_congr_inside (naming : Naming) (path : String) {text other : String}
    (hcount : (scan text).length = (scan other).length)
    (hsame : ∀ k, ∀ line ∈ (scan text)[k]?, ∀ found ∈ (scan other)[k]?,
      line.trimmed = found.trimmed ∨
        ∃ mark, IsInside mark ((scan text).take k) line ∧ ¬ mark.text <+: found.trimmed) :
    read naming path text = read naming path other := by
  have hnumbers : (scan text).map number = (scan other).map number := by
    rw [scan, scan, length_numberFrom, length_numberFrom] at hcount
    rw [scan, scan, map_number_numberFrom, map_number_numberFrom, hcount]
  have hclosed : ({} : Draft).docString.map Prod.fst = openFence [] := rfl
  have hfold := Draft.foldl_feed_congr naming path hclosed hnumbers hsame
  rw [read, read, readLines, readLines, hfold]

theorem Feature.read_congr_inside_of_header :
    let text := "Feature: F\n\"\"\"\nScenario: X\n\"\"\"\nScenario: S"
    let other := "Feature: F\n\"\"\"\n| a |\n\"\"\"\n Scenario: S"
    read {} "a.feature" text = read {} "a.feature" other ∧
      (read {} "a.feature" other).feature.map (·.scenarios.map Scenario.line) = some [5] := by
  intro text other
  have hcount : (scan text).length = (scan other).length := by decide +kernel
  have hsame : ∀ k, ∀ line ∈ (scan text)[k]?, ∀ found ∈ (scan other)[k]?,
      line.trimmed = found.trimmed ∨
        ∃ mark, IsInside mark ((scan text).take k) line ∧ ¬ mark.text <+: found.trimmed := by
    have houtside : ∀ k < (scan text).length, k ≠ 2 → ∀ line ∈ (scan text)[k]?,
        ∀ found ∈ (scan other)[k]?, line.trimmed = found.trimmed := by
      decide +kernel
    have hinside : ∀ line ∈ (scan text)[2]?, ∀ found ∈ (scan other)[2]?,
        ¬ Fence.quotes.text <+: line.trimmed ∧ ¬ Fence.quotes.text <+: found.trimmed := by
      decide +kernel
    intro k line hline found hfound
    by_cases hk : k = 2
    · subst hk
      obtain ⟨hline, hfound⟩ := hinside line hline found hfound
      refine Or.inr ⟨.quotes, ⟨[⟨1, "Feature: F".toList⟩], ⟨2, "\"\"\"".toList⟩, [], ?_⟩, hfound⟩
      refine ⟨by decide +kernel, by decide +kernel, by decide +kernel, ?_⟩
      simpa using hline
    · obtain ⟨hlt, -⟩ := List.getElem?_eq_some_iff.mp hline
      exact Or.inl (houtside k hlt hk line hline found hfound)
  exact ⟨read_congr_inside {} "a.feature" hcount hsame, by decide +kernel⟩

end ScenarioAtlas
