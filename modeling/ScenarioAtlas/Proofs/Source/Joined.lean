import ScenarioAtlas.Proofs.Source.Breaks
import ScenarioAtlas.Source.Kind

/-!
# The lines of joined texts

Two texts with a line feed between them have the lines of the one and then the lines of the other,
with numbers that go on. This needs the first text not to end in half of a line ending. A byte order
mark counts at the start of a text only, so the lower text is taken as written here. Lines that are
put together with any one of the line endings between them are the lines of the text.
-/

namespace ScenarioAtlas.Line

set_option autoImplicit false

def moved (n : Nat) (line : Line) : Line := { line with number := line.number + n }

/-- The first line of a text as written. -/
def first (text : String) : Line := ⟨1, text.toList.takeWhile fun c => c != '\n' && c != '\r'⟩

/-- The lines of a text as written, a byte order mark included. -/
def rawLinesBelow (text : List Char) : List (List Char) := (unifyBreaks text).splitOnP (· == '\n')

@[simp]
theorem kind_moved (n : Nat) (line : Line) : (line.moved n).kind = line.kind := rfl

@[simp]
theorem trimmed_moved (n : Nat) (line : Line) : (line.moved n).trimmed = line.trimmed := rfl

@[simp]
theorem number_moved (n : Nat) (line : Line) : (line.moved n).number = line.number + n := rfl

theorem exists_unifyBreaks_return (text : List Char) :
    ∃ rest, unifyBreaks ('\r' :: text) = '\n' :: rest := by
  by_cases h : text.head? = some '\n'
  · obtain ⟨rest, rfl⟩ := List.head?_eq_some_iff.mp h
    exact ⟨_, unifyBreaks_pair rest⟩
  · exact ⟨_, unifyBreaks_return h⟩

theorem unifyBreaks_append {upper : List Char} (h : upper.getLast? ≠ some '\r')
    (lower : List Char) :
    unifyBreaks (upper ++ '\n' :: lower) = unifyBreaks upper ++ '\n' :: unifyBreaks lower := by
  have htail {c : Char} {text : List Char} (h : (c :: text).getLast? ≠ some '\r') :
      text.getLast? ≠ some '\r' := by
    intro hlast
    apply h
    simp [List.getLast?_cons, hlast]
  fun_induction breaks upper with
  | case1 text ih =>
    rw [List.cons_append, List.cons_append, unifyBreaks_pair, ih (htail (htail h)),
      unifyBreaks_pair, List.cons_append]
  | case2 text hnext ih =>
    -- the carriage return is not the last character, so the next one is in the upper text as well
    cases text with
    | nil => exact absurd rfl h
    | cons c rest =>
      have hc : c ≠ '\n' := by
        rintro rfl
        exact hnext rest rfl
      rw [List.cons_append, unifyBreaks_return (by simpa using hc), ih (htail h),
        unifyBreaks_return (by simpa using hc), List.cons_append]
  | case3 text ih =>
    rw [List.cons_append, unifyBreaks_cons (by decide), ih (htail h),
      unifyBreaks_cons (by decide), List.cons_append]
  | case4 c text _ hc _ ih =>
    rw [List.cons_append, unifyBreaks_cons hc, ih (htail h), unifyBreaks_cons hc,
      List.cons_append]
  | case5 =>
    rw [List.nil_append, unifyBreaks_cons (by decide)]
    rfl

theorem dropByteOrderMark_append (upper lower : List Char) :
    dropByteOrderMark (upper ++ '\n' :: lower) = dropByteOrderMark upper ++ '\n' :: lower := by
  cases upper with
  | nil => rfl
  | cons c upper =>
    rw [List.cons_append]
    unfold dropByteOrderMark
    split
    case h_1 heq =>
      obtain ⟨rfl, rfl⟩ := List.cons.inj heq
      rfl
    case h_2 hc =>
      split
      case h_1 heq =>
        obtain ⟨rfl, rfl⟩ := List.cons.inj heq
        exact absurd rfl (hc _)
      case h_2 => rfl

theorem getLast?_dropByteOrderMark {text : List Char} (h : text.getLast? ≠ some '\r') :
    (dropByteOrderMark text).getLast? ≠ some '\r' := by
  unfold dropByteOrderMark
  split
  case h_1 text =>
    intro hlast
    apply h
    simp [List.getLast?_cons, hlast]
  case h_2 => exact h

theorem rawLines_append {upper : List Char} (h : upper.getLast? ≠ some '\r')
    (lower : List Char) :
    rawLines (upper ++ '\n' :: lower) = rawLines upper ++ rawLinesBelow lower := by
  rw [rawLines, rawLines, rawLinesBelow, dropByteOrderMark_append,
    unifyBreaks_append (getLast?_dropByteOrderMark h), List.splitOnP_append_cons _ _ rfl]

theorem numberFrom_append (start : Nat) (upper lower : List (List Char)) :
    numberFrom start (upper ++ lower) =
      numberFrom start upper ++ numberFrom (start + upper.length) lower := by
  induction upper generalizing start with
  | nil => rfl
  | cons raw rest ih =>
    rw [List.cons_append, numberFrom, ih, numberFrom, List.length_cons, List.cons_append]
    congr 3
    omega

theorem numberFrom_add (start n : Nat) (raws : List (List Char)) :
    numberFrom (start + n) raws = (numberFrom start raws).map (moved n) := by
  induction raws generalizing start with
  | nil => rfl
  | cons raw rest ih =>
    rw [numberFrom, numberFrom, List.map_cons, ← ih, Nat.add_right_comm]
    rfl

theorem scan_append {upper lower : String} (h : upper.toList.getLast? ≠ some '\r') :
    scan (upper ++ "\n" ++ lower) =
      scan upper ++ numberFrom ((scan upper).length + 1) (rawLinesBelow lower.toList) := by
  have htext : (upper ++ "\n" ++ lower).toList = upper.toList ++ '\n' :: lower.toList := by simp
  have hlength : (scan upper).length = (rawLines upper.toList).length := length_numberFrom _ _
  rw [scan, htext, rawLines_append h, numberFrom_append, ← scan, hlength, Nat.add_comm 1]

theorem exists_rawLinesBelow_eq (text : List Char) :
    ∃ rest, rawLinesBelow text = (text.takeWhile fun c => c != '\n' && c != '\r') :: rest := by
  induction text with
  | nil => exact ⟨[], rfl⟩
  | cons c text ih =>
    unfold rawLinesBelow at ih ⊢
    by_cases hreturn : c = '\r'
    · subst hreturn
      obtain ⟨rest, hrest⟩ := exists_unifyBreaks_return text
      exact ⟨rest.splitOnP (· == '\n'), by simp [hrest, List.splitOnP_cons_eq_if_modifyHead]⟩
    · rw [unifyBreaks_cons hreturn, List.splitOnP_cons_eq_if_modifyHead]
      by_cases hfeed : c = '\n'
      · exact ⟨(unifyBreaks text).splitOnP (· == '\n'), by simp [hfeed]⟩
      · obtain ⟨rest, hrest⟩ := ih
        exact ⟨rest, by simp [hfeed, hreturn, hrest]⟩

/-- How a line of a text may end. -/
def endings : List String := ["\n", "\r", "\r\n"]

theorem unifyBreaks_append_left {line : List Char} (h : '\r' ∉ line) (text : List Char) :
    unifyBreaks (line ++ text) = line ++ unifyBreaks text := by
  induction line with
  | nil => rfl
  | cons c line ih =>
    rw [List.mem_cons, not_or] at h
    rw [List.cons_append, unifyBreaks_cons (Ne.symm h.1), ih h.2, List.cons_append]

theorem unifyBreaks_ending {ending : String} (hending : ending ∈ endings) {text : List Char}
    (htext : ending = "\r" → '\n' ∉ text) :
    unifyBreaks (ending.toList ++ text) = '\n' :: unifyBreaks text := by
  simp only [endings, List.mem_cons, List.not_mem_nil, or_false] at hending
  rcases hending with rfl | rfl | rfl
  · exact unifyBreaks_cons (by decide) text
  · apply unifyBreaks_return
    intro hhead
    exact htext rfl (List.mem_of_head? hhead)
  · exact unifyBreaks_pair text

theorem not_mem_intercalate {c : Char} {ending : List Char} (hending : c ∉ ending)
    {lines : List (List Char)} (hlines : ∀ line ∈ lines, c ∉ line) :
    c ∉ ending.intercalate lines := by
  induction lines with
  | nil => exact List.not_mem_nil
  | cons line rest ih =>
    obtain ⟨hline, hrest⟩ := List.forall_mem_cons.mp hlines
    cases rest with
    | nil => simpa using hline
    | cons next rest =>
      rw [List.intercalate_cons_cons, List.mem_append, List.mem_append, not_or, not_or]
      exact ⟨⟨hline, hending⟩, ih hrest⟩

theorem unifyBreaks_intercalate {ending : String} (hending : ending ∈ endings)
    {lines : List (List Char)} (hlines : ∀ line ∈ lines, '\n' ∉ line ∧ '\r' ∉ line) :
    unifyBreaks (ending.toList.intercalate lines) = ['\n'].intercalate lines := by
  induction lines with
  | nil => rfl
  | cons line rest ih =>
    obtain ⟨⟨-, hreturn⟩, hrest⟩ := List.forall_mem_cons.mp hlines
    cases rest with
    | nil =>
      have hline := unifyBreaks_append_left hreturn []
      simpa using hline
    | cons next rest =>
      rw [List.intercalate_cons_cons, List.intercalate_cons_cons, List.append_assoc,
        unifyBreaks_append_left hreturn, unifyBreaks_ending hending, ih hrest]
      · simp
      · rintro rfl
        exact not_mem_intercalate (by decide) fun line hline => (hrest line hline).1

theorem dropByteOrderMark_eq_self {text : List Char} (h : text.head? ≠ some '\ufeff') :
    dropByteOrderMark text = text := by
  unfold dropByteOrderMark
  split
  case h_1 => exact absurd rfl h
  case h_2 => rfl

theorem head?_intercalate_ne {c d : Char} (hne : d ≠ c) (more : List Char)
    {lines : List (List Char)} (hfirst : ∀ first, lines.head? = some first → first.head? ≠ some c) :
    ((d :: more).intercalate lines).head? ≠ some c := by
  cases lines with
  | nil => nofun
  | cons first rest =>
    have hfirst := hfirst first rfl
    cases rest with
    | nil => simpa using hfirst
    | cons next rest =>
      rw [List.intercalate_cons_cons]
      cases first with
      | nil => simpa using hne
      | cons e first => simpa using hfirst

theorem scan_intercalate {ending : String} (hending : ending ∈ endings) {lines : List String}
    (hsome : lines ≠ []) (hlines : ∀ line ∈ lines, '\n' ∉ line.toList ∧ '\r' ∉ line.toList)
    (hmark : ∀ first, lines.head? = some first → first.toList.head? ≠ some '\ufeff') :
    scan (ending.intercalate lines) = numberFrom 1 (lines.map String.toList) := by
  have hraws : ∀ raw ∈ lines.map String.toList, '\n' ∉ raw ∧ '\r' ∉ raw :=
    List.forall_mem_map.mpr hlines
  have hhead : (ending.toList.intercalate (lines.map String.toList)).head? ≠ some '\ufeff' := by
    have hstart : ∃ d more, ending.toList = d :: more ∧ d ≠ '\ufeff' := by
      simp only [endings, List.mem_cons, List.not_mem_nil, or_false] at hending
      rcases hending with rfl | rfl | rfl <;> exact ⟨_, _, rfl, by decide⟩
    obtain ⟨d, more, hd, hne⟩ := hstart
    rw [hd]
    apply head?_intercalate_ne hne
    intro first hfirst
    rw [List.head?_map, Option.map_eq_some_iff] at hfirst
    obtain ⟨line, hline, rfl⟩ := hfirst
    exact hmark line hline
  rw [scan, rawLines, String.toList_intercalate, dropByteOrderMark_eq_self hhead,
    unifyBreaks_intercalate hending hraws]
  have hsplit := List.splitOn_intercalate '\n' (fun raw hraw => (hraws raw hraw).1)
    (mt List.map_eq_nil_iff.mp hsome)
  exact congrArg (numberFrom 1) hsplit

end ScenarioAtlas.Line
