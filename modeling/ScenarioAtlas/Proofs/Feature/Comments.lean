import Mathlib.Data.List.DropRight
import ScenarioAtlas.Proofs.Feature.Renumbering
import ScenarioAtlas.Proofs.Source.Joined

/-!
# Comments

A comment changes no draft, be it in a doc string, between tags or in a table. So a comment that is
put into a file only pushes the lines below it down by one, and reading carries their numbers along.
-/

namespace ScenarioAtlas

set_option autoImplicit false

open Line

/-- The number of a line once another one is put in below the first `n`. -/
def pushed (n line : Nat) : Nat := if line ≤ n then line else line + 1

theorem Line.kind_of_head? {line : Line} (h : line.trimmed.head? = some '#') :
    line.kind = .comment := by
  obtain ⟨rest, hrest⟩ := List.head?_eq_some_iff.mp h
  rw [Line.kind, hrest]
  rfl

theorem Text.head?_ne_of_trim {s : List Char} (h : (trim s).head? = some '#') :
    s.head? ≠ some '\ufeff' := by
  intro hmark
  obtain ⟨rest, rfl⟩ := List.head?_eq_some_iff.mp hmark
  have hstart : trim ('\ufeff' :: rest) <+: '\ufeff' :: rest := List.rdropWhile_prefix isBlank _
  obtain ⟨more, hmore⟩ := List.head?_eq_some_iff.mp h
  rw [hmore, List.cons_prefix_cons] at hstart
  exact absurd hstart.1 (by decide)

namespace Draft

variable (naming : Naming) (path : String) {line : Line}

theorem feed_comment (draft : Draft) (h : line.kind = .comment) :
    draft.feed naming path line = draft := by
  unfold feed
  split
  case h_1 mark opened hdoc =>
    split
    case isTrue hcloses =>
      rw [kind_of_isPrefixOf hcloses] at h
      cases h
    case isFalse => rfl
  case h_2 =>
    unfold feedOpen
    rw [h]

end Draft

theorem Line.map_renumbered_pushed (before after : List (List Char)) :
    (numberFrom 1 (before ++ after)).map (renumbered (pushed before.length)) =
      numberFrom 1 before ++ numberFrom (before.length + 2) after := by
  have habove : (numberFrom 1 before).map (renumbered (pushed before.length)) =
      numberFrom 1 before := by
    refine (List.map_congr_left fun line hline => ?_).trans (List.map_id _)
    obtain ⟨-, hlast⟩ := number_of_mem_numberFrom hline
    have hnumber : pushed before.length line.number = line.number := by
      rw [pushed, if_pos]
      omega
    rw [renumbered, hnumber]
    rfl
  have hbelow : (numberFrom (1 + before.length) after).map (renumbered (pushed before.length)) =
      numberFrom (1 + before.length + 1) after := by
    rw [numberFrom_add (1 + before.length) 1]
    refine List.map_congr_left fun line hline => ?_
    obtain ⟨hfirst, -⟩ := number_of_mem_numberFrom hline
    have hnumber : pushed before.length line.number = line.number + 1 := by
      rw [pushed, if_neg]
      omega
    rw [renumbered, hnumber]
    rfl
  have hstart : 1 + before.length + 1 = before.length + 2 := by omega
  rw [numberFrom_append, List.map_append, habove, hbelow, hstart]

namespace Feature

variable (naming : Naming) (path : String)

theorem readLines_insert_comment (before after : List (List Char)) {comment : List Char}
    (h : (Text.trim comment).head? = some '#') :
    readLines naming path (numberFrom 1 (before ++ comment :: after)) =
      (readLines naming path (numberFrom 1 (before ++ after))).renumbered
        (pushed before.length) := by
  have hcounted : ∀ line ∈ numberFrom 1 (before ++ after), 0 < line.number := by
    intro line hline
    exact (number_of_mem_numberFrom hline).1
  have hkind : (Line.mk (1 + before.length) comment).kind = .comment := kind_of_head? h
  have hnext : 1 + before.length + 1 = before.length + 2 := by omega
  rw [← readLines_renumbered naming path rfl hcounted, map_renumbered_pushed, numberFrom_append,
    numberFrom, hnext]
  simp only [readLines, List.foldl_append, List.foldl_cons, Draft.feed_comment naming path _ hkind]

/-- A comment can be put anywhere into a file, or taken out: what is read is the same, with each
line below the comment one further down. The lines are told as written, with any of the line endings
between them; a byte order mark counts only at the very start of a text. -/
theorem read_insert_comment {ending : String} (hending : ending ∈ endings)
    {before after : List String} {comment : String}
    (hlines : ∀ line ∈ before ++ after, '\n' ∉ line.toList ∧ '\r' ∉ line.toList)
    (hmark : ∀ first, (before ++ after).head? = some first → first.toList.head? ≠ some '\ufeff')
    (hbreak : '\n' ∉ comment.toList ∧ '\r' ∉ comment.toList)
    (hhash : (Text.trim comment.toList).head? = some '#') :
    read naming path (ending.intercalate (before ++ comment :: after)) =
      (read naming path (ending.intercalate (before ++ after))).renumbered
        (pushed before.length) := by
  have hlonger : scan (ending.intercalate (before ++ comment :: after)) =
      numberFrom 1 (before.map String.toList ++ comment.toList :: after.map String.toList) := by
    rw [← List.map_cons, ← List.map_append]
    apply scan_intercalate hending (by simp)
    · intro line hline
      rcases List.mem_append.mp hline with hline | hline
      · exact hlines line (List.mem_append_left _ hline)
      · rcases List.mem_cons.mp hline with rfl | hline
        · exact hbreak
        · exact hlines line (List.mem_append_right _ hline)
    · intro first hfirst
      cases before with
      | nil =>
        obtain rfl := Option.some.inj hfirst
        exact Text.head?_ne_of_trim hhash
      | cons _ _ => exact hmark first hfirst
  have hshorter : readLines naming path (scan (ending.intercalate (before ++ after))) =
      readLines naming path
        (numberFrom 1 (before.map String.toList ++ after.map String.toList)) := by
    by_cases hsome : before ++ after = []
    · obtain ⟨rfl, rfl⟩ := List.append_eq_nil_iff.mp hsome
      rfl
    · rw [← List.map_append, scan_intercalate hending hsome hlines hmark]
  have hinsert := readLines_insert_comment naming path (before.map String.toList)
    (after.map String.toList) hhash
  rw [read, read, hlonger, hshorter, hinsert, List.length_map]

theorem read_insert_comment_between_rows :
    let above := ["Feature: F", "Scenario Outline: O", "Examples:", "|x|"]
    let below := ["|1|", "|1|2|"]
    let longer := read {} "a.feature" ("\r\n".intercalate (above ++ " # note" :: below))
    longer = (read {} "a.feature" ("\r\n".intercalate (above ++ below))).renumbered (pushed 4) ∧
      longer.feature.map (·.scenarios.map Scenario.line) = some [6] ∧
      longer.issues = [⟨7, .cellCountMismatch 1 2⟩] := by
  intro above below longer
  have hending : "\r\n" ∈ endings := by decide
  have hlines : ∀ line ∈ above ++ below, '\n' ∉ line.toList ∧ '\r' ∉ line.toList := by
    decide +kernel
  have hmark : ∀ first, (above ++ below).head? = some first →
      first.toList.head? ≠ some '\ufeff' := by
    rintro _ ⟨⟩
    decide
  have hinsert := read_insert_comment {} "a.feature" hending hlines hmark
    (by decide : '\n' ∉ " # note".toList ∧ '\r' ∉ " # note".toList) (by decide +kernel)
  exact ⟨hinsert, by decide +kernel, by decide +kernel⟩

end Feature

end ScenarioAtlas
