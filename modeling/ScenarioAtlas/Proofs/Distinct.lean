import Mathlib.Data.List.Basic
import Mathlib.Data.List.Induction
import Mathlib.Data.List.Nodup

/-!
# Distinct items

Tags, paths and slots are taken each once, at the first place in a list that has them. So they come
in the order of their first places.
-/

namespace ScenarioAtlas

set_option autoImplicit false

variable {β : Type} [DecidableEq β]

theorem eraseDups_concat (keys : List β) (k : β) :
    (keys ++ [k]).eraseDups = if k ∈ keys then keys.eraseDups else keys.eraseDups ++ [k] := by
  rw [List.eraseDups_append]
  split
  case isTrue h => simp [List.removeAll, h]
  case isFalse h => simp [List.removeAll, h, List.eraseDups_cons]

theorem pairwise_idxOf_eraseDups (keys : List β) :
    keys.eraseDups.Pairwise fun k other => keys.idxOf k < keys.idxOf other := by
  induction keys using List.reverseRecOn with
  | nil => exact .nil
  | append_singleton keys last ih =>
    have hbefore : keys.eraseDups.Pairwise fun k other =>
        (keys ++ [last]).idxOf k < (keys ++ [last]).idxOf other := by
      refine ih.imp_of_mem ?_
      intro k other hk hother hlt
      rwa [List.idxOf_append_of_mem (List.mem_eraseDups.mp hk),
        List.idxOf_append_of_mem (List.mem_eraseDups.mp hother)]
    rw [eraseDups_concat]
    split
    case isTrue => exact hbefore
    case isFalse hlast =>
      refine List.pairwise_append.mpr ⟨hbefore, List.pairwise_singleton _ _, ?_⟩
      intro k hk other hother
      have hmem := List.mem_eraseDups.mp hk
      rw [List.mem_singleton.mp hother, List.idxOf_append_of_mem hmem,
        List.idxOf_append_of_notMem hlast]
      exact Nat.lt_of_lt_of_le (List.idxOf_lt_length_of_mem hmem) (Nat.le_add_right _ _)

/-- Whether an item is first found in front of where another one is. -/
def FirstBefore (l : List β) (k other : β) : Prop := l.idxOf k < l.idxOf other

/-- The items of a list, each once and in the order of their first places. -/
structure FirstPlaces (l keys : List β) : Prop where
  mem_iff : ∀ k, k ∈ keys ↔ k ∈ l
  ordered : keys.Pairwise (FirstBefore l)

theorem firstPlaces_eraseDups (l : List β) : FirstPlaces l l.eraseDups :=
  ⟨fun _ => List.mem_eraseDups, pairwise_idxOf_eraseDups l⟩

theorem FirstPlaces.nodup {l keys : List β} (h : FirstPlaces l keys) : keys.Nodup := by
  apply h.ordered.imp
  rintro k _ hlt rfl
  exact Nat.lt_irrefl _ hlt

theorem nodup_eraseDups (keys : List β) : keys.eraseDups.Nodup :=
  (firstPlaces_eraseDups keys).nodup

/-- There is one list only that has the items in this way. -/
theorem firstPlaces_iff {l keys : List β} : FirstPlaces l keys ↔ keys = l.eraseDups := by
  constructor
  · intro h
    have hperm : keys.Perm l.eraseDups := by
      apply (List.perm_ext_iff_of_nodup h.nodup (nodup_eraseDups l)).mpr
      intro k
      rw [h.mem_iff, List.mem_eraseDups]
    refine hperm.eq_of_pairwise ?_ h.ordered (pairwise_idxOf_eraseDups l)
    intro k other _ _ hlt hgt
    exact absurd hlt (Nat.lt_asymm hgt)
  · rintro rfl
    exact firstPlaces_eraseDups l

/-- Where no two items have the same key, each one is the only one with its key. -/
theorem filter_eq_singleton {α : Type} {f : α → β} {l : List α} (h : (l.map f).Nodup) {a : α}
    (ha : a ∈ l) : l.filter (f · = f a) = [a] := by
  obtain ⟨before, after, rfl⟩ := List.append_of_mem ha
  rw [List.map_append, List.map_cons, List.nodup_middle] at h
  have hother : ∀ other ∈ before ++ after, f other ≠ f a := by
    intro other hmem heq
    rw [← List.map_append, List.nodup_cons] at h
    exact h.1 (heq ▸ List.mem_map_of_mem hmem)
  obtain ⟨hbefore, hafter⟩ := List.forall_mem_append.mp hother
  rw [List.filter_append, List.filter_cons_of_pos (by simp),
    List.filter_eq_nil_iff.mpr (by simpa using hbefore),
    List.filter_eq_nil_iff.mpr (by simpa using hafter), List.nil_append]

/-- The only item of its kind is the one that is found. -/
theorem find?_eq_some_of_unique {α : Type} {p : α → Bool} {l : List α} {a : α} (hmem : a ∈ l)
    (ha : p a = true) (hunique : ∀ b ∈ l, p b = true → b = a) : l.find? p = some a := by
  obtain ⟨found, hfound⟩ := Option.isSome_iff_exists.mp (List.find?_isSome.mpr ⟨a, hmem, ha⟩)
  rw [hfound, hunique found (List.mem_of_find?_eq_some hfound) (List.find?_some hfound)]

/-- Where no two entries have the same key, looking a key up finds whatever entry has it. -/
theorem lookup_eq_some_iff_mem {α : Type} {entries : List (β × α)}
    (h : (entries.map Prod.fst).Nodup) {key : β} {value : α} :
    entries.lookup key = some value ↔ (key, value) ∈ entries := by
  rw [List.lookup_eq_some_iff]
  constructor
  · rintro ⟨before, after, rfl, -⟩
    simp
  · intro hmem
    obtain ⟨before, after, rfl⟩ := List.append_of_mem hmem
    refine ⟨before, after, rfl, fun entry hentry => ?_⟩
    rw [List.map_append, List.map_cons] at h
    have hapart := (List.nodup_append.mp h).2.2 entry.1 (List.mem_map_of_mem hentry) key
      List.mem_cons_self
    exact bne_iff_ne.mpr hapart.symm

end ScenarioAtlas
