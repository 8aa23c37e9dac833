import Mathlib.Data.List.Basic
import ScenarioAtlas.Proofs.Text.Replace
import ScenarioAtlas.Runner.Invocation

/-!
# Command lines read back

A command line is read in one pass that only has to know whether it is inside of quotes. What quoting
writes for a word is read as that word wherever the line goes on from outside of quotes, be the word
written plain or between quotes. So the words of a line are the program and its arguments again. No
line that is written otherwise is claimed to be read as a shell reads it.
-/

namespace ScenarioAtlas.Invocation

set_option autoImplicit false

/-- The words of a line from a place on, which is inside of quotes or not. Outside, a space ends a
word and a quote opens quotes. Inside, a backslash in front of a backslash or a quote stands for that
character alone, and any other quote closes the quotes. -/
def wordsFrom : Bool → List Char → List (List Char)
  | _, [] => [[]]
  | false, ' ' :: rest => [] :: wordsFrom false rest
  | false, '"' :: rest => wordsFrom true rest
  | true, '"' :: rest => wordsFrom false rest
  | true, '\\' :: '\\' :: rest => (wordsFrom true rest).modifyHead ('\\' :: ·)
  | true, '\\' :: '"' :: rest => (wordsFrom true rest).modifyHead ('"' :: ·)
  | quoted, c :: rest => (wordsFrom quoted rest).modifyHead (c :: ·)

def words (line : String) : List String := (wordsFrom false line.toList).map String.ofList

theorem wordsFrom_cons {c : Char} (hspace : c ≠ ' ') (hquote : c ≠ '"') (rest : List Char) :
    wordsFrom false (c :: rest) = (wordsFrom false rest).modifyHead (c :: ·) := by
  rw [wordsFrom] <;> simp_all

theorem wordsFrom_quoted_cons {c : Char} (hbackslash : c ≠ '\\') (hquote : c ≠ '"')
    (rest : List Char) :
    wordsFrom true (c :: rest) = (wordsFrom true rest).modifyHead (c :: ·) := by
  rw [wordsFrom] <;> simp_all

theorem plain_ne {c : Char} (h : isPlain c = true) : c ≠ ' ' ∧ c ≠ '"' := by
  constructor
  · rintro rfl
    exact absurd h (by decide)
  · rintro rfl
    exact absurd h (by decide)

/-- The two replacements write each character by itself: those of the second one do not meet what
the first one has put in. -/
theorem quoteAlways_eq (word : List Char) :
    quoteAlways word =
      '"' :: word.flatMap (fun c => if c = '\\' ∨ c = '"' then ['\\', c] else [c]) ++ ['"'] := by
  simp only [quoteAlways, Text.replaceAll_singleton, List.flatMap_assoc]
  congr 3
  funext c
  by_cases hbackslash : c = '\\'
  · subst hbackslash
    rfl
  · by_cases hquote : c = '"'
    · subst hquote
      rfl
    · simp [hbackslash, hquote]

/-- What stands between the quotes of a word is read as the word, up to the closing quote. -/
theorem wordsFrom_quoteAlways (word rest : List Char) :
    wordsFrom false (quoteAlways word ++ rest) = (wordsFrom false rest).modifyHead (word ++ ·) := by
  rw [quoteAlways_eq, List.cons_append, List.cons_append, wordsFrom]
  induction word with
  | nil =>
    rw [List.flatMap_nil, List.nil_append, List.singleton_append, wordsFrom]
    exact (congrFun List.modifyHead_id _).symm
  | cons c word ih =>
    rw [List.flatMap_cons, List.append_assoc, List.append_assoc]
    have hcons : (wordsFrom false rest).modifyHead (c :: word ++ ·) =
        ((wordsFrom false rest).modifyHead (word ++ ·)).modifyHead (c :: ·) := by
      rw [List.modifyHead_modifyHead]
      rfl
    rw [hcons, ← ih, List.append_assoc]
    by_cases hbackslash : c = '\\'
    · subst hbackslash
      rfl
    · by_cases hquote : c = '"'
      · subst hquote
        rfl
      · rw [if_neg (by simp [hbackslash, hquote]), List.singleton_append,
          wordsFrom_quoted_cons hbackslash hquote]

theorem wordsFrom_plain {word : List Char} (h : ∀ c ∈ word, isPlain c = true) (rest : List Char) :
    wordsFrom false (word ++ rest) = (wordsFrom false rest).modifyHead (word ++ ·) := by
  induction word with
  | nil => exact (congrFun List.modifyHead_id _).symm
  | cons c word ih =>
    obtain ⟨hspace, hquote⟩ := plain_ne (h c List.mem_cons_self)
    rw [List.cons_append, wordsFrom_cons hspace hquote,
      ih fun d hd => h d (List.mem_cons_of_mem c hd), List.modifyHead_modifyHead]
    rfl

theorem wordsFrom_quote (word rest : List Char) :
    wordsFrom false (quote word ++ rest) = (wordsFrom false rest).modifyHead (word ++ ·) := by
  unfold quote
  split
  case isTrue hplain =>
    rw [Bool.and_eq_true, List.all_eq_true] at hplain
    exact wordsFrom_plain hplain.2 rest
  case isFalse => exact wordsFrom_quoteAlways word rest

/-- Words that are written with a space between any two of them are read back, if there are any. -/
theorem wordsFrom_intercalate (word : List Char) (more : List (List Char)) :
    wordsFrom false ([' '].intercalate ((word :: more).map quote)) = word :: more := by
  induction more generalizing word with
  | nil =>
    have hlast := wordsFrom_quote word []
    rw [List.append_nil] at hlast
    simpa [List.intercalate, wordsFrom] using hlast
  | cons next more ih =>
    rw [List.map_cons, List.map_cons, List.intercalate_cons_cons, List.append_assoc,
      wordsFrom_quote, List.singleton_append, wordsFrom, ← List.map_cons, ih next,
      List.modifyHead_cons, List.append_nil]

theorem toList_commandLine (invocation : Invocation) :
    invocation.commandLine.toList =
      [' '].intercalate (((invocation.program :: invocation.arguments).map String.toList).map
        quote) := by
  rw [commandLine, String.toList_intercalate, List.map_map, List.map_map]
  congr 2
  funext word
  exact String.toList_ofList

/-- The words of a command line are the program and its arguments, whatever characters they have. So
two invocations have one command line exactly if they have the same program and arguments. -/
theorem words_commandLine (invocation : Invocation) :
    words invocation.commandLine = invocation.program :: invocation.arguments ∧
      ∀ other : Invocation, other.commandLine = invocation.commandLine ↔
        other.program = invocation.program ∧ other.arguments = invocation.arguments := by
  have hread (own : Invocation) : words own.commandLine = own.program :: own.arguments := by
    rw [words, toList_commandLine, List.map_cons, wordsFrom_intercalate, ← List.map_cons,
      List.map_map]
    simp
  refine ⟨hread invocation, fun other => ⟨fun hline => ?_, fun hsame => ?_⟩⟩
  · have hwords := hread other
    rw [hline, hread invocation] at hwords
    obtain ⟨hprogram, harguments⟩ := List.cons.inj hwords
    exact ⟨hprogram.symm, harguments.symm⟩
  · rw [commandLine, hsame.1, hsame.2, commandLine]

/-- Quotes, backslashes, a line feed and an empty argument. -/
example :
    let spoken := "^Say \\\"hi\\\\\"\n"
    words (commandLine ⟨"run it", ["a.feature:3", "", spoken], false⟩) =
      ["run it", "a.feature:3", "", spoken] := by decide +kernel

end ScenarioAtlas.Invocation
