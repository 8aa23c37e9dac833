import Mathlib.Data.List.Basic
import ScenarioAtlas.Text.Search

/-!
# Replacing

Replacing from left to right, an occurrence and a character at a time. What stands in front of a text
is left alone if no occurrence starts in it.
-/

namespace ScenarioAtlas.Text

set_option autoImplicit false

variable {α : Type} [BEq α] {old new : List α}

theorem replaceFrom_length (passed s : List α) :
    replaceFrom old new passed.length (passed ++ s) = replaceAll old new s := by
  induction passed with
  | nil => rfl
  | cons c passed ih => exact ih

theorem replaceAll_append [LawfulBEq α] (h : old ≠ []) (s : List α) :
    replaceAll old new (old ++ s) = new ++ replaceAll old new s := by
  cases old with
  | nil => exact absurd rfl h
  | cons c old =>
    have hstarts : (c :: old).isPrefixOf (c :: (old ++ s)) = true :=
      List.isPrefixOf_iff_prefix.mpr (List.prefix_append (c :: old) s)
    rw [replaceAll, List.cons_append, replaceFrom, if_pos hstarts, List.length_cons,
      Nat.add_sub_cancel, replaceFrom_length]

theorem replaceAll_cons {c : α} {s : List α} (h : old.isPrefixOf (c :: s) = false) :
    replaceAll old new (c :: s) = c :: replaceAll old new s := by
  rw [replaceAll, replaceFrom, h]
  rfl

theorem replaceAll_singleton [LawfulBEq α] [DecidableEq α] (c : α) (new s : List α) :
    replaceAll [c] new s = s.flatMap fun d => if d = c then new else [d] := by
  induction s with
  | nil => rfl
  | cons d s ih =>
    rw [List.flatMap_cons, ← ih]
    by_cases hd : d = c
    · subst hd
      rw [if_pos rfl]
      exact replaceAll_append (List.cons_ne_nil d []) s
    · have hstarts : [c].isPrefixOf (d :: s) = false := by
        rw [List.isPrefixOf_cons_cons, beq_false_of_ne (Ne.symm hd), Bool.false_and]
      rw [if_neg hd, replaceAll_cons hstarts]
      rfl

def occurrences (part : List α) : List α → Nat
  | [] => 0
  | c :: s => (if part.isPrefixOf (c :: s) then 1 else 0) + occurrences part s

theorem occurrences_le_append (part before s : List α) :
    occurrences part s ≤ occurrences part (before ++ s) := by
  induction before with
  | nil => exact Nat.le_refl _
  | cons c before ih => exact Nat.le_trans ih (Nat.le_add_left _ _)

theorem occurrences_cons [LawfulBEq α] {part s : List α} {c : α} (h : ¬ part <+: c :: s) :
    occurrences part (c :: s) = occurrences part s := by
  rw [occurrences, if_neg (by rwa [List.isPrefixOf_iff_prefix]), Nat.zero_add]

theorem replaceAll_append_of_occurrences_eq {before s : List α}
    (h : occurrences old (before ++ s) = occurrences old s) :
    replaceAll old new (before ++ s) = before ++ replaceAll old new s := by
  induction before with
  | nil => rfl
  | cons c before ih =>
    have hle := occurrences_le_append old before s
    rw [List.cons_append, occurrences] at h
    split at h
    case isTrue => omega
    case isFalse hstarts =>
      rw [List.cons_append, replaceAll_cons (Bool.eq_false_iff.mpr hstarts), ih (by omega),
        List.cons_append]

end ScenarioAtlas.Text
