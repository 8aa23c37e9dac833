import Mathlib.Data.List.Basic
import ScenarioAtlas.Text.Search

/-!
# Cutting texts

Where the cuts of a text fall: at the last separator if none is behind it, before an ending that the
text has, and before the last part whose first character does not come again.
-/

namespace ScenarioAtlas.Text

set_option autoImplicit false

variable {α : Type}

theorem append_cons_inj {sep : α} {before before' after after' : List α} (h : sep ∉ before)
    (h' : sep ∉ before') (heq : before ++ sep :: after = before' ++ sep :: after') :
    before = before' ∧ after = after' := by
  induction before generalizing before' with
  | nil =>
    cases before' with
    | nil => simpa using heq
    | cons d before' =>
      obtain ⟨rfl, -⟩ := List.cons.inj heq
      exact absurd List.mem_cons_self h'
  | cons c before ih =>
    cases before' with
    | nil =>
      obtain ⟨rfl, -⟩ := List.cons.inj heq
      exact absurd List.mem_cons_self h
    | cons d before' =>
      obtain ⟨rfl, hrest⟩ := List.cons.inj heq
      obtain ⟨rfl, hafter⟩ := ih (fun hmem => h (List.mem_cons_of_mem _ hmem))
        (fun hmem => h' (List.mem_cons_of_mem _ hmem)) hrest
      exact ⟨rfl, hafter⟩

theorem infix_left_or_right {sep : α} {part before after : List α} (hsep : sep ∉ part)
    (h : part <:+: before ++ sep :: after) : part <:+: before ∨ part <:+: after := by
  obtain ⟨front, back, hsplit⟩ := h
  rcases List.append_eq_append_iff.mp hsplit with ⟨middle, hbefore, -⟩ | ⟨middle, hpart, hafter⟩
  · exact Or.inl ⟨front, middle, hbefore.symm⟩
  cases middle with
  | nil =>
    rw [List.append_nil] at hpart
    exact Or.inl ⟨front, [], by rw [List.append_nil, hpart]⟩
  | cons c middle =>
    obtain ⟨rfl, rfl⟩ := List.cons.inj hafter
    rcases List.append_eq_append_iff.mp hpart with ⟨rest, -, rfl⟩ | ⟨rest, -, hrest⟩
    · exact absurd (List.mem_append_right _ List.mem_cons_self) hsep
    · cases rest with
      | nil =>
        have hwhole : part = sep :: middle := hrest.symm
        exact absurd (hwhole ▸ List.mem_cons_self) hsep
      | cons d rest =>
        obtain ⟨rfl, rfl⟩ := List.cons.inj hrest
        exact Or.inr ⟨rest, back, rfl⟩

theorem eq_false_of_mem_splitOnP {p : α → Bool} {s part : List α} (h : part ∈ s.splitOnP p) :
    ∀ c ∈ part, p c = false := by
  induction s generalizing part with
  | nil =>
    rw [List.splitOnP_nil, List.mem_singleton] at h
    simp [h]
  | cons first s ih =>
    rw [List.splitOnP_cons_eq_if_modifyHead] at h
    split at h
    · rcases List.mem_cons.mp h with rfl | h
      · simp
      · exact ih h
    case isFalse hfirst =>
      obtain ⟨head, rest, hparts⟩ := List.exists_cons_of_ne_nil (List.splitOnP_ne_nil p s)
      rw [hparts, List.modifyHead_cons] at h
      rw [hparts] at ih
      rcases List.mem_cons.mp h with rfl | h
      · intro c hc
        rcases List.mem_cons.mp hc with rfl | hc
        · exact Bool.eq_false_iff.mpr hfirst
        · exact ih List.mem_cons_self c hc
      · exact ih (List.mem_cons_of_mem head h)

variable [BEq α] [LawfulBEq α]

theorem contains_iff_infix {part s : List α} : contains part s = true ↔ part <:+: s := by
  induction s with
  | nil => simp [contains]
  | cons c s ih => simp [contains, List.infix_cons_iff, ih]

theorem cutLast?_eq_none {sep : α} {s : List α} (h : sep ∉ s) : cutLast? sep s = none := by
  induction s with
  | nil => rfl
  | cons c s ih =>
    rw [List.mem_cons, not_or] at h
    simp [cutLast?, ih h.2, Ne.symm h.1]

theorem cutLast?_append {sep : α} {after : List α} (h : sep ∉ after) (before : List α) :
    cutLast? sep (before ++ sep :: after) = some (before, after) := by
  induction before with
  | nil => simp [cutLast?, cutLast?_eq_none h]
  | cons c before ih => simp [cutLast?, ih]

theorem not_mem_of_cutLast?_eq_none {sep : α} {s : List α} (h : cutLast? sep s = none) :
    sep ∉ s := by
  induction s with
  | nil => exact List.not_mem_nil
  | cons c s ih =>
    rw [cutLast?] at h
    split at h
    case h_1 => cases h
    case h_2 hcut =>
      split at h
      case isTrue => cases h
      case isFalse hc =>
        rw [List.mem_cons, not_or]
        exact ⟨fun heq => hc (beq_iff_eq.mpr heq.symm), ih hcut⟩

theorem cutLast?_eq_some_iff {sep : α} {s before after : List α} :
    cutLast? sep s = some (before, after) ↔ s = before ++ sep :: after ∧ sep ∉ after := by
  constructor
  · intro h
    induction s generalizing before with
    | nil => cases h
    | cons c s ih =>
      rw [cutLast?] at h
      split at h
      case h_1 front back hcut =>
        cases h
        obtain ⟨rfl, hafter⟩ := ih hcut
        exact ⟨rfl, hafter⟩
      case h_2 hcut =>
        split at h
        case isFalse => cases h
        case isTrue hc =>
          cases h
          exact ⟨by rw [eq_of_beq hc, List.nil_append], not_mem_of_cutLast?_eq_none hcut⟩
  · rintro ⟨rfl, hafter⟩
    exact cutLast?_append hafter before

theorem isPrefixOf?_eq_some_iff {part s rest : List α} :
    part.isPrefixOf? s = some rest ↔ s = part ++ rest := by
  induction part generalizing s with
  | nil => simp [List.isPrefixOf?]
  | cons c part ih =>
    cases s with
    | nil => simp [List.isPrefixOf?]
    | cons d s =>
      by_cases h : c = d
      · simp [List.isPrefixOf?, h, ih]
      · simp [List.isPrefixOf?, h, Ne.symm h]

theorem afterStart?_eq_some_iff {part s rest : List α} :
    afterStart? part s = some rest ↔ s = part ++ rest := isPrefixOf?_eq_some_iff

theorem beforeEnd?_eq_some_iff {part s before : List α} :
    beforeEnd? part s = some before ↔ s = before ++ part := by
  simp only [beforeEnd?, Option.map_eq_some_iff, isPrefixOf?_eq_some_iff]
  constructor
  · rintro ⟨rest, hrest, rfl⟩
    have hs := congrArg List.reverse hrest
    rwa [List.reverse_reverse, List.reverse_append, List.reverse_reverse] at hs
  · rintro rfl
    exact ⟨before.reverse, by simp, by simp⟩

theorem beforeEnd?_eq_none {part s : List α} (h : ¬ part <:+ s) : beforeEnd? part s = none := by
  rw [Option.eq_none_iff_forall_ne_some]
  intro before hbefore
  exact h ⟨before, (beforeEnd?_eq_some_iff.mp hbefore).symm⟩

theorem beforeLast?_eq_none_of_not_infix {part s : List α} (h : ¬ part <:+: s) :
    beforeLast? part s = none := by
  induction s with
  | nil =>
    cases part with
    | nil => exact absurd List.infix_rfl h
    | cons c part => rfl
  | cons d s ih =>
    rw [List.infix_cons_iff, not_or, ← List.isPrefixOf_iff_prefix] at h
    simp [beforeLast?, ih h.2, h.1]

/-- An occurrence behind which none starts is the last one. One that overlaps it counts too. -/
theorem beforeLast?_append_of_not_infix {c : α} {part rest : List α}
    (h : ¬ c :: part <:+: part ++ rest) (before : List α) :
    beforeLast? (c :: part) (before ++ c :: part ++ rest) = some before := by
  induction before with
  | nil =>
    have hstarts : part.isPrefixOf (part ++ rest) = true := by simp
    simp [beforeLast?, beforeLast?_eq_none_of_not_infix h, hstarts]
  | cons d before ih =>
    rw [List.append_assoc, List.cons_append] at ih
    simp [beforeLast?, ih]

/-- A part is found last where its first character stands for the last time. -/
theorem beforeLast?_append {c : α} {part rest : List α} (hpart : c ∉ part) (hrest : c ∉ rest)
    (before : List α) : beforeLast? (c :: part) (before ++ c :: part ++ rest) = some before := by
  refine beforeLast?_append_of_not_infix (fun hagain => ?_) before
  have hmem : c ∈ part ++ rest := hagain.subset List.mem_cons_self
  simp [hpart, hrest] at hmem

theorem fields_eq_singleton {sep : α} {s : List α} (h : sep ∉ s) : fields sep s = [s] := by
  apply List.splitOnP_eq_singleton
  intro c hc
  simpa using fun heq : c = sep => h (heq ▸ hc)

end ScenarioAtlas.Text
