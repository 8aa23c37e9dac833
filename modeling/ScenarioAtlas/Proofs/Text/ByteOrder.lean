import Mathlib.Data.List.Sort
import Mathlib.Data.String.Basic
import ScenarioAtlas.Glob.Matcher

/-!
# The order of texts and of their bytes

Texts are compared character by character, and their UTF-8 forms byte by byte. Both give one order:
of two characters the first byte tells how long their forms are, and the longer form belongs to the
larger character. So a list of distinct texts is ascending in either order once it is sorted.
-/

namespace ScenarioAtlas

set_option autoImplicit false

/-- The bytes of the smaller of two characters come first, whatever follows either of them. -/
theorem utf8EncodeChar_append_lt {c d : Char} (h : c < d) (s t : List UInt8) :
    String.utf8EncodeChar c ++ s < String.utf8EncodeChar d ++ t := by
  have hvalue : c.val.toNat < d.val.toNat := h
  have hmax : d.val.toNat < 0x110000 := by
    have hvalid := d.valid
    simp only [UInt32.isValidChar, Nat.isValidChar] at hvalid
    omega
  unfold String.utf8EncodeChar
  dsimp only
  repeat' split
  all_goals
    simp (disch := omega) only [List.cons_append, List.nil_append, List.cons_lt_cons_iff,
      UInt8.lt_iff_toNat_lt, ← UInt8.toNat_inj, UInt8.toNat_ofNat', Nat.mod_eq_of_lt]
    omega

theorem utf8Bytes_lt {s t : List Char} (h : s < t) : utf8Bytes s < utf8Bytes t := by
  induction s generalizing t with
  | nil =>
    cases t with
    | nil => exact absurd h (List.lt_irrefl [])
    | cons d t =>
      obtain ⟨first, more, hbytes⟩ := List.exists_cons_of_ne_nil
        (String.utf8EncodeChar_ne_nil : String.utf8EncodeChar d ≠ [])
      rw [utf8Bytes, utf8Bytes, List.flatMap_nil, List.flatMap_cons, hbytes, List.cons_append]
      exact List.nil_lt_cons _ _
  | cons c s ih =>
    cases t with
    | nil => exact absurd h (List.not_lt_nil _)
    | cons d t =>
      rw [utf8Bytes, utf8Bytes, List.flatMap_cons, List.flatMap_cons]
      rcases List.cons_lt_cons_iff.mp h with hlt | ⟨rfl, hrest⟩
      · exact utf8EncodeChar_append_lt hlt _ _
      · exact List.append_left_lt (ih hrest)

theorem pairwise_lt_mergeSort {texts : List String} (h : texts.Nodup) :
    (texts.mergeSort fun a b => decide (a ≤ b)).Pairwise (· < ·) := by
  have hsorted := List.pairwise_mergeSort' (· ≤ ·) texts
  have hnodup : (texts.mergeSort fun a b => decide (a ≤ b)).Pairwise (· ≠ ·) :=
    (List.mergeSort_perm _ _).nodup_iff.mpr h
  exact (hsorted.and hnodup).imp fun hab => lt_of_le_of_ne hab.1 hab.2

end ScenarioAtlas
