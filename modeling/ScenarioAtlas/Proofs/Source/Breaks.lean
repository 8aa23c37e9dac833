import Mathlib.Data.List.Basic
import ScenarioAtlas.Proofs.Text.Replace
import ScenarioAtlas.Source.Line

/-!
# Line endings

Line endings are unified in two passes over a whole text. One pass from left to right, which takes a
carriage return together with a line feed behind it, finds the same lines.
-/

namespace ScenarioAtlas.Line

set_option autoImplicit false

section Unified

@[simp]
theorem unifyBreaks_nil : unifyBreaks [] = [] := rfl

theorem unifyBreaks_pair (text : List Char) :
    unifyBreaks ('\r' :: '\n' :: text) = '\n' :: unifyBreaks text := by
  have hpair : Text.replaceAll ['\r', '\n'] ['\n'] ('\r' :: '\n' :: text) =
      '\n' :: Text.replaceAll ['\r', '\n'] ['\n'] text :=
    Text.replaceAll_append (List.cons_ne_nil _ _) text
  rw [unifyBreaks, hpair, Text.replaceAll_cons (by rfl), unifyBreaks]

theorem unifyBreaks_return {text : List Char} (h : text.head? ≠ some '\n') :
    unifyBreaks ('\r' :: text) = '\n' :: unifyBreaks text := by
  have hpair : ['\r', '\n'].isPrefixOf ('\r' :: text) = false := by
    cases text with
    | nil => rfl
    | cons c text =>
      have hc : '\n' ≠ c := fun heq => h (heq ▸ rfl)
      simp [List.isPrefixOf, hc]
  have hreturn (rest : List Char) : Text.replaceAll ['\r'] ['\n'] ('\r' :: rest) =
      '\n' :: Text.replaceAll ['\r'] ['\n'] rest :=
    Text.replaceAll_append (List.cons_ne_nil _ _) rest
  rw [unifyBreaks, Text.replaceAll_cons hpair, hreturn, unifyBreaks]

theorem unifyBreaks_cons {c : Char} (h : c ≠ '\r') (text : List Char) :
    unifyBreaks (c :: text) = c :: unifyBreaks text := by
  have hpair : ['\r', '\n'].isPrefixOf (c :: text) = false := by simp [List.isPrefixOf, Ne.symm h]
  have hreturn (rest : List Char) : ['\r'].isPrefixOf (c :: rest) = false := by
    simp [List.isPrefixOf, Ne.symm h]
  rw [unifyBreaks, Text.replaceAll_cons hpair, Text.replaceAll_cons (hreturn _), unifyBreaks]

end Unified

/-- The lines of a text, cut from left to right at each line ending. -/
def cutAtBreaks : List Char → List (List Char)
  | '\r' :: '\n' :: text => [] :: cutAtBreaks text
  | '\r' :: text => [] :: cutAtBreaks text
  | '\n' :: text => [] :: cutAtBreaks text
  | c :: text => (cutAtBreaks text).modifyHead (c :: ·)
  | [] => [[]]

def breaks : List Char → List (List Char)
  | '\r' :: '\n' :: text => ['\r', '\n'] :: breaks text
  | '\r' :: text => ['\r'] :: breaks text
  | '\n' :: text => ['\n'] :: breaks text
  | _ :: text => breaks text
  | [] => []

theorem splitOnP_unifyBreaks (text : List Char) :
    (unifyBreaks text).splitOnP (· == '\n') = cutAtBreaks text := by
  fun_induction cutAtBreaks text with
  | case1 text ih => rw [unifyBreaks_pair, List.splitOnP_cons_eq_if_modifyHead, ih]; rfl
  | case2 text hfeed ih =>
    have hhead : text.head? ≠ some '\n' := by
      intro hhead
      obtain ⟨rest, hrest⟩ := List.head?_eq_some_iff.mp hhead
      exact hfeed rest hrest
    rw [unifyBreaks_return hhead, List.splitOnP_cons_eq_if_modifyHead, ih]
    rfl
  | case3 text ih =>
    rw [unifyBreaks_cons (by decide), List.splitOnP_cons_eq_if_modifyHead, ih]
    rfl
  | case4 c text _ hreturn hfeed ih =>
    rw [unifyBreaks_cons hreturn, List.splitOnP_cons_eq_if_modifyHead, ih, if_neg]
    simpa using hfeed
  | case5 => rfl

theorem cutAtBreaks_ne_nil (text : List Char) : cutAtBreaks text ≠ [] := by
  rw [← splitOnP_unifyBreaks]
  exact List.splitOnP_ne_nil _ _

theorem length_cutAtBreaks (text : List Char) :
    (cutAtBreaks text).length = (breaks text).length + 1 := by
  fun_induction breaks text with
  | case1 text ih => simp [cutAtBreaks, ih]
  | case2 text hfeed ih => simp [cutAtBreaks, ih]
  | case3 text ih => simp [cutAtBreaks, ih]
  | case4 c text hpair hreturn hfeed ih => simp [cutAtBreaks, ih]
  | case5 => rfl

theorem flatten_cutAtBreaks (text : List Char) :
    (List.zipWith (· ++ ·) (cutAtBreaks text) (breaks text ++ [[]])).flatten = text := by
  fun_induction breaks text with
  | case1 text ih => simp [cutAtBreaks, ih]
  | case2 text hfeed ih => simp [cutAtBreaks, ih]
  | case3 text ih => simp [cutAtBreaks, ih]
  | case4 c text hpair hreturn hfeed ih =>
    obtain ⟨line, lines, hlines⟩ := List.exists_cons_of_ne_nil (cutAtBreaks_ne_nil text)
    obtain ⟨first, others, hendings⟩ :=
      List.exists_cons_of_ne_nil (List.append_ne_nil_of_right_ne_nil (breaks text) (List.cons_ne_nil [] []))
    rw [hlines, hendings] at ih
    simpa [cutAtBreaks, hlines, hendings] using ih
  | case5 => rfl

theorem not_mem_of_mem_cutAtBreaks {text line : List Char} (h : line ∈ cutAtBreaks text) :
    '\n' ∉ line ∧ '\r' ∉ line := by
  fun_induction cutAtBreaks text generalizing line with
  | case1 text ih | case2 text hfeed ih | case3 text ih =>
    rcases List.mem_cons.mp h with rfl | h
    · simp
    · exact ih h
  | case4 c text hpair hreturn hfeed ih =>
    obtain ⟨first, lines, hlines⟩ := List.exists_cons_of_ne_nil (cutAtBreaks_ne_nil text)
    rw [hlines] at h ih
    rcases List.mem_cons.mp h with rfl | h
    · obtain ⟨hfirst, hfirst'⟩ := ih List.mem_cons_self
      simp [Ne.symm hreturn, Ne.symm hfeed, hfirst, hfirst']
    · exact ih (List.mem_cons_of_mem first h)
  | case5 =>
    obtain rfl := List.mem_singleton.mp h
    simp

end ScenarioAtlas.Line
