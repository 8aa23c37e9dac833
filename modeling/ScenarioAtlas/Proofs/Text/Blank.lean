import Mathlib.Data.List.DropRight
import ScenarioAtlas.Text.Blank

/-!
# Trimming

A trimmed text has no blank at either end, and blanks put around a text are trimmed away again. A
text without blanks at its two ends is not changed.
-/

namespace ScenarioAtlas.Text

set_option autoImplicit false

theorem mem_of_mem_trim {s : List Char} {c : Char} (h : c ∈ trim s) : c ∈ s :=
  (List.dropWhile_suffix isBlank).subset ((List.rdropWhile_prefix isBlank _).subset h)

theorem isBlank_eq_false_of_head?_trim {s : List Char} {c : Char} (h : (trim s).head? = some c) :
    isBlank c = false := by
  have hstart : trim s <+: s.dropWhile isBlank := List.rdropWhile_prefix isBlank _
  have hfirst := List.head?_dropWhile_not isBlank s
  obtain ⟨rest, hrest⟩ := List.head?_eq_some_iff.mp h
  obtain ⟨behind, hbehind⟩ := hstart
  rw [← hbehind, hrest] at hfirst
  simpa using hfirst

theorem isBlank_eq_false_of_getLast?_trim {s : List Char} {c : Char}
    (h : (trim s).getLast? = some c) : isBlank c = false := by
  have hlast := List.head?_dropWhile_not isBlank (s.dropWhile isBlank).reverse
  rw [trim, trimEnd, List.getLast?_reverse] at h
  rw [h] at hlast
  simpa using hlast

theorem trimEnd_append {after : List Char} (h : ∀ c ∈ after, isBlank c = true) (s : List Char) :
    trimEnd (s ++ after) = trimEnd s := by
  rw [trimEnd, List.reverse_append, List.dropWhile_append_of_pos (by simpa using h), trimEnd]

theorem trim_append {before after : List Char} (hbefore : ∀ c ∈ before, isBlank c = true)
    (hafter : ∀ c ∈ after, isBlank c = true) (s : List Char) :
    trim (before ++ s ++ after) = trim s := by
  rw [trim, List.append_assoc, List.dropWhile_append_of_pos hbefore, List.dropWhile_append, trim]
  split
  case isTrue hblank =>
    rw [List.isEmpty_iff] at hblank
    rw [hblank, List.dropWhile_eq_nil_iff.mpr hafter]
  case isFalse => exact trimEnd_append hafter _

theorem trim_eq_self_of_ends {s : List Char} (hfirst : ∀ c, s.head? = some c → isBlank c = false)
    (hlast : ∀ c, s.getLast? = some c → isBlank c = false) : trim s = s := by
  have hkept {t : List Char} (ht : ∀ c, t.head? = some c → isBlank c = false) :
      t.dropWhile isBlank = t := by
    cases t with
    | nil => rfl
    | cons c t => rw [List.dropWhile_cons_of_neg (by simp [ht c rfl])]
  have hend : ∀ c, s.reverse.head? = some c → isBlank c = false := by
    intro c hc
    exact hlast c (by rwa [List.head?_reverse] at hc)
  rw [trim, hkept hfirst, trimEnd, hkept hend, List.reverse_reverse]

end ScenarioAtlas.Text
