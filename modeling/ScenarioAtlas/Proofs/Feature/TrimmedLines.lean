import ScenarioAtlas.Proofs.Feature.DocStrings
import ScenarioAtlas.Proofs.Source.Breaks

/-!
# Layout of the text

Reading a feature file depends on its lines, and on each of them only as far as trimming leaves it.
So neither the line endings of a file nor the blanks around its lines have a part in what is read.
-/

namespace ScenarioAtlas

set_option autoImplicit false

open Line

theorem Line.rawLines_eq_cutAtBreaks (text : List Char) :
    rawLines text = cutAtBreaks (dropByteOrderMark text) :=
  splitOnP_unifyBreaks _

theorem Line.map_raw_numberFrom (first : Nat) (raws : List (List Char)) :
    (numberFrom first raws).map raw = raws := by
  induction raws generalizing first with
  | nil => rfl
  | cons raw rest ih => rw [numberFrom, List.map_cons, ih]

theorem Feature.readLines_congr (naming : Naming) (path : String) {lines others : List Line}
    (hnumbers : lines.map number = others.map number)
    (htrimmed : lines.map trimmed = others.map trimmed) :
    readLines naming path lines = readLines naming path others := by
  have hclosed : ({} : Draft).docString.map Prod.fst = openFence [] := rfl
  have hfold : lines.foldl (Draft.feed naming path) {} = others.foldl (Draft.feed naming path) {} := by
    apply Draft.foldl_feed_congr naming path hclosed hnumbers
    intro k line hline other hother
    have hk := congrArg (·[k]?) htrimmed
    simp only [List.getElem?_map] at hk
    rw [hline, hother] at hk
    exact Or.inl (Option.some.inj hk)
  rw [readLines, readLines, hfold]

/-- The lines of a text are found by cutting it from left to right at every line ending, after the
byte order mark in front of it. They are numbered from one, there is one more of them than there are
line endings, none has a line ending inside, and with its ending behind each of them they make up the
text. Texts with the same lines, but for the blanks around each of them, are read alike. -/
theorem Feature.read_of_trimmed (naming : Naming) (path text : String) :
    let body := dropByteOrderMark text.toList
    scan text = numberFrom 1 (cutAtBreaks body) ∧
      (scan text).length = (breaks body).length + 1 ∧
      (scan text).map number = List.range' 1 (scan text).length ∧
      (∀ line ∈ scan text, '\n' ∉ line.raw ∧ '\r' ∉ line.raw) ∧
      (List.zipWith (· ++ ·) ((scan text).map raw) (breaks body ++ [[]])).flatten = body ∧
      ∀ other, (scan text).map trimmed = (scan other).map trimmed →
        read naming path text = read naming path other := by
  intro body
  have hscan : scan text = numberFrom 1 (cutAtBreaks body) := by
    rw [scan, rawLines_eq_cutAtBreaks]
  have hraws : (scan text).map raw = cutAtBreaks body := by rw [hscan, map_raw_numberFrom]
  have hnumbers (text : String) : (scan text).map number = List.range' 1 (scan text).length := by
    rw [scan, map_number_numberFrom, length_numberFrom]
  refine ⟨hscan, ?_, hnumbers text, ?_, ?_, ?_⟩
  · rw [hscan, length_numberFrom, length_cutAtBreaks]
  · intro line hline
    apply not_mem_of_mem_cutAtBreaks
    rw [← hraws]
    exact List.mem_map_of_mem hline
  · rw [hraws, flatten_cutAtBreaks]
  · intro other htrimmed
    have hlength := congrArg List.length htrimmed
    rw [List.length_map, List.length_map] at hlength
    apply readLines_congr naming path _ htrimmed
    rw [hnumbers, hnumbers, hlength]

theorem Feature.read_of_trimmed_with_mixed_endings :
    let text := "\ufeffFeature: F\r\r\n  Scenario: S\r  Given x\n"
    let other := "Feature: F\n\nScenario: S \nGiven x\r"
    (scan text).map trimmed = (scan other).map trimmed ∧
      (scan text).map number = [1, 2, 3, 4, 5] ∧
      read {} "a.feature" text = read {} "a.feature" other ∧
      (read {} "a.feature" other).feature.map (·.scenarios.map Scenario.line) = some [3] := by
  intro text other
  have htrimmed : (scan text).map trimmed = (scan other).map trimmed := by decide +kernel
  obtain ⟨-, -, hnumbers, -, -, hread⟩ := read_of_trimmed {} "a.feature" text
  have hlength : (scan text).length = 5 := by decide +kernel
  rw [hlength] at hnumbers
  exact ⟨htrimmed, hnumbers, hread other htrimmed, by decide +kernel⟩

end ScenarioAtlas
