import Mathlib.Data.List.Induction
import Mathlib.Data.List.Infix
import Mathlib.Data.List.Nodup
import Mathlib.Data.List.Perm.Basic
import ScenarioAtlas.Example.Placeholder
import ScenarioAtlas.Proofs.Distinct
import ScenarioAtlas.Proofs.Text.Cut
import ScenarioAtlas.Proofs.Text.Replace

/-!
# Placeholders filled at once

The columns of a table are filled in one after the other, so a value that is put in, with what stands
around it, can bring the placeholder of a later column about. As long as none comes about, all columns
could be filled in at once, in one reading of the step that passes over what it puts in, and the order
of the columns has no say.
-/

namespace ScenarioAtlas.Placeholder

set_option autoImplicit false

open Text (occurrences)

/-- A step with the placeholders of all columns replaced in one reading from left to right, after
passing over `skip` characters. -/
def fillFrom (columns : List (String × String)) : Nat → List Char → List Char
  | _, [] => []
  | skip + 1, _ :: s => fillFrom columns skip s
  | 0, c :: s =>
    match columns.find? fun column => (mark column.1).isPrefixOf (c :: s) with
    | some column => column.2.toList ++ fillFrom columns ((mark column.1).length - 1) s
    | none => c :: fillFrom columns 0 s

/-- A step with the placeholders of all columns, headers with their values, replaced at once. -/
def fillAtOnce (columns : List (String × String)) (step : List Char) : List Char :=
  fillFrom columns 0 step

/-- A header without the brackets that mark a placeholder. -/
def IsPlain (header : String) : Prop := '<' ∉ header.toList ∧ '>' ∉ header.toList

/-- Columns with headers of their own, each with its value. -/
structure AreColumns (columns : List (String × String)) : Prop where
  distinct : (columns.map Prod.fst).Nodup
  plain : ∀ column ∈ columns, IsPlain column.1

/-- Filling in the columns in their order brings no placeholder about: where the turn of a column
comes, its placeholder occurs as often as in the step. -/
def BringsNone (step : List Char) (columns : List (String × String)) : Prop :=
  ∀ before column, before ++ [column] <+: columns →
    occurrences (mark column.1) (fillAtOnce before step) = occurrences (mark column.1) step

/-- Every opening bracket in a step opens the placeholder of a column. -/
def OpensPlaceholders (columns : List (String × String)) (step : List Char) : Prop :=
  ∀ rest, '<' :: rest <:+ step → ∃ column ∈ columns, mark column.1 <+: '<' :: rest

section Marks

variable {header other : String} {c : Char} {s : List Char}

theorem eq_of_mark_prefix_cons (h : mark header <+: c :: s) : c = '<' :=
  (List.cons_prefix_cons.mp h).1.symm

theorem mark_prefix_append_iff (hheader : IsPlain header) (hother : IsPlain other) :
    mark header <+: mark other ++ s ↔ header = other := by
  constructor
  · rintro ⟨rest, hrest⟩
    have htail : header.toList ++ '>' :: rest = other.toList ++ '>' :: s := by
      simpa [mark] using hrest
    exact String.toList_inj.mp (Text.append_cons_inj hheader.2 hother.2 htail).1
  · rintro rfl
    exact List.prefix_append _ _

theorem mark_append (header : String) (s : List Char) :
    mark header ++ s = '<' :: (header.toList ++ ['>'] ++ s) := rfl

theorem open_not_mem_tail (h : IsPlain header) : '<' ∉ header.toList ++ ['>'] := by
  simp [h.1]

end Marks

section Occurrences

variable {header other : String} {s : List Char}

theorem occurrences_append {before : List Char} (h : '<' ∉ before) :
    occurrences (mark header) (before ++ s) = occurrences (mark header) s := by
  induction before with
  | nil => rfl
  | cons c before ih =>
    rw [List.mem_cons, not_or] at h
    rw [List.cons_append,
      Text.occurrences_cons fun hstarts => h.1 (eq_of_mark_prefix_cons hstarts).symm, ih h.2]

theorem occurrences_mark_append (hheader : IsPlain header) (hother : IsPlain other) :
    occurrences (mark header) (mark other ++ s) =
      (if header = other then 1 else 0) + occurrences (mark header) s := by
  have hstarts : (mark header).isPrefixOf (mark other ++ s) = true ↔ header = other := by
    rw [List.isPrefixOf_iff_prefix, mark_prefix_append_iff hheader hother]
  rw [mark_append] at hstarts ⊢
  rw [occurrences, occurrences_append (open_not_mem_tail hother)]
  simp only [hstarts]

end Occurrences

section Reading

variable {columns : List (String × String)} {column : String × String} {s : List Char}

theorem fillFrom_length (columns : List (String × String)) (passed s : List Char) :
    fillFrom columns passed.length (passed ++ s) = fillAtOnce columns s := by
  induction passed with
  | nil => rfl
  | cons c passed ih => exact ih

theorem AreColumns.find?_eq (h : AreColumns columns) (hmem : column ∈ columns) (s : List Char) :
    columns.find? (fun other => (mark other.1).isPrefixOf (mark column.1 ++ s)) = some column := by
  have hown : (mark column.1).isPrefixOf (mark column.1 ++ s) = true :=
    List.isPrefixOf_iff_prefix.mpr (List.prefix_append _ s)
  refine find?_eq_some_of_unique hmem hown fun other hother hstarts => ?_
  rw [List.isPrefixOf_iff_prefix,
    mark_prefix_append_iff (h.plain other hother) (h.plain column hmem)] at hstarts
  exact List.inj_on_of_nodup_map h.distinct hother hmem hstarts

/-- The value of a column takes the place of its placeholder, and reading goes on behind it. -/
theorem AreColumns.fillAtOnce_mark (h : AreColumns columns) (hmem : column ∈ columns)
    (s : List Char) :
    fillAtOnce columns (mark column.1 ++ s) = column.2.toList ++ fillAtOnce columns s := by
  have hfound := h.find?_eq hmem s
  rw [mark_append] at hfound ⊢
  rw [fillAtOnce, fillFrom, hfound]
  exact congrArg _ (fillFrom_length columns (column.1.toList ++ ['>']) s)

theorem fillAtOnce_cons {c : Char} (h : ∀ column ∈ columns, ¬ mark column.1 <+: c :: s) :
    fillAtOnce columns (c :: s) = c :: fillAtOnce columns s := by
  have hfound : columns.find? (fun column => (mark column.1).isPrefixOf (c :: s)) = none := by
    rw [List.find?_eq_none]
    intro column hmem
    rw [List.isPrefixOf_iff_prefix]
    exact h column hmem
  rw [fillAtOnce, fillFrom, hfound]
  rfl

theorem fillAtOnce_no_columns (s : List Char) : fillAtOnce [] s = s := by
  induction s with
  | nil => rfl
  | cons c s ih => rw [fillAtOnce_cons (by simp), ih]

theorem fillAtOnce_append {before : List Char} (h : '<' ∉ before) :
    fillAtOnce columns (before ++ s) = before ++ fillAtOnce columns s := by
  induction before with
  | nil => rfl
  | cons c before ih =>
    rw [List.mem_cons, not_or] at h
    rw [List.cons_append,
      fillAtOnce_cons fun _ _ hstarts => h.1 (eq_of_mark_prefix_cons hstarts).symm, ih h.2,
      List.cons_append]

theorem AreColumns.fillAtOnce_other {header : String} (h : AreColumns columns)
    (hplain : IsPlain header) (hother : ∀ column ∈ columns, column.1 ≠ header) (s : List Char) :
    fillAtOnce columns (mark header ++ s) = mark header ++ fillAtOnce columns s := by
  have hstarts : ∀ column ∈ columns, ¬ mark column.1 <+: mark header ++ s := by
    intro column hmem hstarts
    exact hother column hmem ((mark_prefix_append_iff (h.plain column hmem) hplain).mp hstarts)
  rw [mark_append] at hstarts ⊢
  rw [fillAtOnce_cons hstarts, fillAtOnce_append (open_not_mem_tail hplain)]
  rfl

theorem reading_induction (columns : List (String × String)) {P : List Char → Prop} (nil : P [])
    (slot : ∀ column ∈ columns, ∀ s, P s → P (mark column.1 ++ s))
    (char : ∀ c s, (∀ column ∈ columns, ¬ mark column.1 <+: c :: s) → P s → P (c :: s))
    (s : List Char) : P s := by
  induction hlength : s.length using Nat.strongRecOn generalizing s with
  | ind n ih =>
    subst hlength
    cases s with
    | nil => exact nil
    | cons c s =>
      by_cases hstarts : ∃ column ∈ columns, mark column.1 <+: c :: s
      · obtain ⟨column, hmem, rest, hrest⟩ := hstarts
        rw [← hrest]
        refine slot column hmem rest (ih _ ?_ rest rfl)
        rw [← hrest, mark_append, List.length_cons, List.length_append]
        omega
      · refine char c s (fun column hmem h => hstarts ⟨column, hmem, h⟩) (ih _ ?_ s rfl)
        exact Nat.lt_succ_self s.length

/-- What is filled in at once does not depend on the order of the columns. -/
theorem AreColumns.fillAtOnce_congr {order : List (String × String)} (horder : AreColumns order)
    (hcolumns : AreColumns columns) (hsame : ∀ column, column ∈ order ↔ column ∈ columns)
    (s : List Char) : fillAtOnce order s = fillAtOnce columns s := by
  induction s using reading_induction columns with
  | nil => rfl
  | slot column hmem s ih =>
    rw [horder.fillAtOnce_mark ((hsame column).mpr hmem), hcolumns.fillAtOnce_mark hmem, ih]
  | char c s hstarts ih =>
    rw [fillAtOnce_cons fun column hmem => hstarts column ((hsame column).mp hmem),
      fillAtOnce_cons hstarts, ih]

end Reading

section Turns

variable {columns : List (String × String)} {column : String × String}

theorem AreColumns.of_append {before after : List (String × String)}
    (h : AreColumns (before ++ after)) : AreColumns before where
  distinct := (List.nodup_append.mp (List.map_append ▸ h.distinct)).1
  plain := fun column hmem => h.plain column (List.mem_append_left after hmem)

theorem AreColumns.ne_last (h : AreColumns (columns ++ [column])) {other : String × String}
    (hmem : other ∈ columns) : other.1 ≠ column.1 := by
  have hdistinct := h.distinct
  rw [List.map_append, List.nodup_append] at hdistinct
  exact hdistinct.2.2 _ (List.mem_map_of_mem hmem) _ (by simp)

/-- A placeholder whose column is still to come stays where it is. -/
theorem AreColumns.occurrences_le (h : AreColumns (columns ++ [column])) (s : List Char) :
    occurrences (mark column.1) s ≤ occurrences (mark column.1) (fillAtOnce columns s) := by
  have hlast : IsPlain column.1 := h.plain column (by simp)
  induction s using reading_induction (columns ++ [column]) with
  | nil => exact Nat.le_refl _
  | slot other hmem s ih =>
    rw [occurrences_mark_append hlast (h.plain other hmem)]
    rcases List.mem_append.mp hmem with hbefore | hother
    · rw [if_neg (h.ne_last hbefore).symm, Nat.zero_add, h.of_append.fillAtOnce_mark hbefore]
      exact Nat.le_trans ih (Text.occurrences_le_append _ _ _)
    · rw [List.mem_singleton.mp hother, h.of_append.fillAtOnce_other hlast fun _ => h.ne_last,
        occurrences_mark_append hlast hlast]
      omega
  | char c s hstarts ih =>
    rw [Text.occurrences_cons (hstarts column (by simp)),
      fillAtOnce_cons fun other hmem => hstarts other (List.mem_append_left _ hmem)]
    exact Nat.le_trans ih (Text.occurrences_le_append _ [c] _)

/-- What stands in front of a part of the step is passed over by the turn of a column if the column's
placeholder occurs there, filled in, no more often than in the part of the step alone. -/
theorem AreColumns.fill_append (h : AreColumns (columns ++ [column])) {before s : List Char}
    (hnone : occurrences (mark column.1) (before ++ fillAtOnce columns s) =
      occurrences (mark column.1) s) :
    fill (before ++ fillAtOnce columns s) column.1 column.2 =
        before ++ fill (fillAtOnce columns s) column.1 column.2 ∧
      occurrences (mark column.1) (fillAtOnce columns s) = occurrences (mark column.1) s := by
  have hkept := h.occurrences_le s
  have hbehind : occurrences (mark column.1) (fillAtOnce columns s) ≤
      occurrences (mark column.1) (before ++ fillAtOnce columns s) :=
    Text.occurrences_le_append _ before _
  exact ⟨Text.replaceAll_append_of_occurrences_eq (by omega), by omega⟩

/-- Where the columns before it brought none of its placeholders about, a column is filled in as if
all were filled in at once. -/
theorem AreColumns.fill_fillAtOnce (h : AreColumns (columns ++ [column])) {s : List Char}
    (hnone : occurrences (mark column.1) (fillAtOnce columns s) = occurrences (mark column.1) s) :
    fill (fillAtOnce columns s) column.1 column.2 = fillAtOnce (columns ++ [column]) s := by
  have hlast : IsPlain column.1 := h.plain column (by simp)
  have hmark : mark column.1 ≠ [] := List.cons_ne_nil _ _
  induction s using reading_induction (columns ++ [column]) with
  | nil => rfl
  | slot other hmem s ih =>
    rw [occurrences_mark_append hlast (h.plain other hmem)] at hnone
    rw [h.fillAtOnce_mark hmem]
    rcases List.mem_append.mp hmem with hbefore | hother
    · rw [if_neg (h.ne_last hbefore).symm, Nat.zero_add,
        h.of_append.fillAtOnce_mark hbefore] at hnone
      obtain ⟨hvalue, hrest⟩ := h.fill_append hnone
      rw [h.of_append.fillAtOnce_mark hbefore, hvalue, ih hrest]
    · obtain rfl := List.mem_singleton.mp hother
      rw [h.of_append.fillAtOnce_other hlast fun _ => h.ne_last,
        occurrences_mark_append hlast hlast] at hnone
      rw [h.of_append.fillAtOnce_other hlast fun _ => h.ne_last, fill,
        Text.replaceAll_append hmark, ← fill, ih (Nat.add_left_cancel hnone)]
  | char c s hstarts ih =>
    have hbefore : ∀ other ∈ columns, ¬ mark other.1 <+: c :: s :=
      fun other hmem => hstarts other (List.mem_append_left _ hmem)
    rw [Text.occurrences_cons (hstarts column (by simp)), fillAtOnce_cons hbefore,
      ← List.singleton_append] at hnone
    obtain ⟨hchar, hrest⟩ := h.fill_append hnone
    rw [fillAtOnce_cons hbefore, fillAtOnce_cons hstarts, ← ih hrest]
    exact hchar

/-- Filling in column after column is filling in all at once, as long as none of their turns brings
a placeholder about. -/
theorem AreColumns.foldl_fill_eq {order : List (String × String)} (h : AreColumns order)
    {step : List Char} (hnone : BringsNone step order) :
    order.foldl (fun s (header, value) => fill s header value) step = fillAtOnce order step := by
  induction order using List.reverseRecOn with
  | nil => exact (fillAtOnce_no_columns step).symm
  | append_singleton columns column ih =>
    rw [List.foldl_append, ih h.of_append fun before other hbegins =>
      hnone before other (hbegins.trans (List.prefix_append _ _))]
    exact h.fill_fillAtOnce (hnone columns column (List.prefix_refl _))

/-- Where every opening bracket of the step is one of a placeholder, values without opening brackets
bring no placeholder about. -/
theorem AreColumns.occurrences_fillAtOnce {filled : List (String × String)}
    (h : AreColumns columns) (hfilled : AreColumns filled) (hsubset : filled ⊆ columns)
    (hvalues : ∀ column ∈ columns, '<' ∉ column.2.toList) {header : String}
    (hheader : IsPlain header) (hother : ∀ column ∈ filled, column.1 ≠ header) {s : List Char}
    (hopens : OpensPlaceholders columns s) :
    occurrences (mark header) (fillAtOnce filled s) = occurrences (mark header) s := by
  induction s using reading_induction columns with
  | nil => rfl
  | slot column hmem s ih =>
    have hrest := ih fun rest hsuffix => hopens rest (hsuffix.trans (List.suffix_append _ _))
    have hplain : IsPlain column.1 := h.plain column hmem
    rw [occurrences_mark_append hheader hplain]
    by_cases hin : column ∈ filled
    · rw [hfilled.fillAtOnce_mark hin, occurrences_append (hvalues column hmem), hrest,
        if_neg (hother column hin).symm, Nat.zero_add]
    · have hunfilled : ∀ other ∈ filled, other.1 ≠ column.1 := by
        intro other hmem' heq
        exact hin (List.inj_on_of_nodup_map h.distinct (hsubset hmem') hmem heq ▸ hmem')
      rw [hfilled.fillAtOnce_other hplain hunfilled, occurrences_mark_append hheader hplain, hrest]
  | char c s hstarts ih =>
    have hrest := ih fun rest hsuffix => hopens rest (hsuffix.trans (List.suffix_cons _ _))
    have hopen : '<' ∉ [c] := by
      intro hmem
      obtain rfl := List.mem_singleton.mp hmem
      obtain ⟨column, hmem, hstarts'⟩ := hopens s (List.suffix_refl _)
      exact hstarts column hmem hstarts'
    rw [fillAtOnce_cons fun column hmem => hstarts column (hsubset hmem)]
    calc occurrences (mark header) ([c] ++ fillAtOnce filled s)
        = occurrences (mark header) (fillAtOnce filled s) := occurrences_append hopen
      _ = occurrences (mark header) s := hrest
      _ = occurrences (mark header) ([c] ++ s) := (occurrences_append hopen).symm

theorem AreColumns.of_perm {order : List (String × String)} (h : AreColumns columns)
    (hperm : order.Perm columns) : AreColumns order where
  distinct := ((hperm.map Prod.fst).nodup_iff).mpr h.distinct
  plain := fun column hmem => h.plain column (hperm.mem_iff.mp hmem)

theorem AreColumns.bringsNone {order : List (String × String)} (h : AreColumns columns)
    (hperm : order.Perm columns) (hvalues : ∀ column ∈ columns, '<' ∉ column.2.toList)
    {step : List Char} (hopens : OpensPlaceholders columns step) : BringsNone step order := by
  rintro before column ⟨after, rfl⟩
  have hbefore : AreColumns (before ++ [column]) := (h.of_perm hperm).of_append
  have hsubset : before ⊆ columns := by
    intro other hmem
    exact hperm.mem_iff.mp (by simp [hmem])
  exact h.occurrences_fillAtOnce hbefore.of_append hsubset hvalues (hbefore.plain column (by simp))
    (fun _ => hbefore.ne_last) hopens

end Turns

/-- In every order of the columns in which none brings a placeholder about, each placeholder of the
step is replaced by the value of its column and no value that is put in is read, so these orders all
give the same text. If no value holds an opening bracket and the step holds none but those of
placeholders, that is every order. -/
theorem substitute_eq_fillAtOnce {columns order : List (String × String)} (h : AreColumns columns)
    (hperm : order.Perm columns) (step : String) :
    (BringsNone step.toList order →
      substitute step (order.map Prod.fst) (order.map Prod.snd) =
        String.ofList (fillAtOnce columns step.toList)) ∧
      ((∀ column ∈ columns, '<' ∉ column.2.toList) → OpensPlaceholders columns step.toList →
        BringsNone step.toList order) := by
  refine ⟨fun hnone => ?_, fun hvalues hopens => h.bringsNone hperm hvalues hopens⟩
  have horder : AreColumns order := h.of_perm hperm
  have hzip : (order.map Prod.fst).zip (order.map Prod.snd) = order := by
    rw [List.zip_map']
    exact List.map_id order
  rw [substitute, hzip, horder.foldl_fill_eq hnone,
    horder.fillAtOnce_congr h fun _ => hperm.mem_iff]

theorem substitute_eq_fillAtOnce_of_swapped :
    let columns := [("a", "b>"), ("b", "2")]
    AreColumns columns ∧ [("b", "2"), ("a", "b>")].Perm columns ∧
      BringsNone "<a>, <b>".toList [("b", "2"), ("a", "b>")] ∧
      substitute "<a>, <b>" ["b", "a"] ["2", "b>"] = "b>, 2" := by
  intro columns
  have hcolumns : AreColumns columns := ⟨by decide, by simp [columns, IsPlain]⟩
  have hperm : [("b", "2"), ("a", "b>")].Perm columns := List.Perm.swap _ _ _
  have hopens : OpensPlaceholders columns "<a>, <b>".toList := by
    have hall : ∀ place ∈ "<a>, <b>".toList.tails, place.head? = some '<' →
        ∃ column ∈ columns, (mark column.1).isPrefixOf place = true := by
      decide +kernel
    intro rest hsuffix
    obtain ⟨column, hmem, hstarts⟩ := hall _ ((List.mem_tails _ _).mpr hsuffix) rfl
    exact ⟨column, hmem, List.isPrefixOf_iff_prefix.mp hstarts⟩
  obtain ⟨hfilled, hnone⟩ := substitute_eq_fillAtOnce hcolumns hperm "<a>, <b>"
  have hnone := hnone (by decide +kernel) hopens
  refine ⟨hcolumns, hperm, hnone, (hfilled hnone).trans ?_⟩
  decide +kernel

/-- A value that is a placeholder of a later column is read again, and so is one between brackets of
the step. With the columns the other way round neither is. -/
theorem substitute_depends_on_order :
    AreColumns [("a", "<b>"), ("b", "1")] ∧ AreColumns [("a", "b"), ("b", "1")] ∧
      substitute "<a>" ["a", "b"] ["<b>", "1"] = "1" ∧
      substitute "<a>" ["b", "a"] ["1", "<b>"] = "<b>" ∧
      substitute "<<a>>" ["a", "b"] ["b", "1"] = "1" ∧
      substitute "<<a>>" ["b", "a"] ["1", "b"] = "<b>" ∧
      ¬ ∀ (step : String) (columns order : List (String × String)), AreColumns columns →
        order.Perm columns → substitute step (order.map Prod.fst) (order.map Prod.snd) =
          String.ofList (fillAtOnce columns step.toList) := by
  have hcolumns : AreColumns [("a", "<b>"), ("b", "1")] := ⟨by decide, by simp [IsPlain]⟩
  refine ⟨hcolumns, ⟨by decide, by simp [IsPlain]⟩, by decide +kernel, by decide +kernel,
    by decide +kernel, by decide +kernel, fun h => ?_⟩
  exact absurd (h "<a>" _ _ hcolumns (List.Perm.refl _)) (by decide +kernel)

end ScenarioAtlas.Placeholder
