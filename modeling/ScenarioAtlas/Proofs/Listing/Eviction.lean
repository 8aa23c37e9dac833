import Mathlib.Data.List.Count
import Mathlib.Data.List.Perm.Subperm
import ScenarioAtlas.Proofs.Distinct
import ScenarioAtlas.Proofs.Listing.Cache

/-!
# Eviction

After a write the newest of the entries that are not too old stay, as many of them as the cache keeps.
Of two entries from the same time the one whose pattern comes later counts as newer, so the order in
which the cache holds its entries makes no difference.
-/

namespace ScenarioAtlas.Cache

set_option autoImplicit false

def AreDistinct (entries : List (String × CacheEntry)) : Prop := (entries.map Prod.fst).Nodup

instance (entries : List (String × CacheEntry)) : Decidable (AreDistinct entries) :=
  inferInstanceAs (Decidable (entries.map Prod.fst).Nodup)

/-- Whether an entry is from an earlier time than another one, or from the same time and for a
pattern that comes first. -/
def IsOlder (a b : String × CacheEntry) : Prop :=
  a.2.timestamp < b.2.timestamp ∨ (a.2.timestamp = b.2.timestamp ∧ a.1 < b.1)

instance (a b : String × CacheEntry) : Decidable (IsOlder a b) := inferInstanceAs (Decidable (_ ∨ _))

/-- Whether entries are the newest ones of a list, as they stand there, and `count` of them if it has
that many. -/
structure AreNewest (count : Nat) (entries kept : List (String × CacheEntry)) : Prop where
  sublist : kept.Sublist entries
  length_eq : kept.length = min entries.length count
  older : ∀ entry ∈ entries, entry ∉ kept → ∀ other ∈ kept, IsOlder entry other

variable {settings : CacheSettings} {now : Nat} {pattern : String} {new : CacheEntry}
variable {entries kept : List (String × CacheEntry)} {a b c : String × CacheEntry}

theorem AreDistinct.nodup (h : AreDistinct entries) : entries.Nodup := List.Nodup.of_map Prod.fst h

theorem AreDistinct.sublist (h : AreDistinct entries) (hkept : kept.Sublist entries) :
    AreDistinct kept :=
  List.Nodup.sublist (hkept.map Prod.fst) h

theorem AreDistinct.perm (h : AreDistinct entries) (hperm : entries.Perm kept) : AreDistinct kept :=
  (hperm.map Prod.fst).nodup_iff.mp h

theorem setEntry_perm (h : AreDistinct entries) :
    (setEntry pattern new entries).Perm ((pattern, new) :: entries.filter (·.1 ≠ pattern)) := by
  induction entries with
  | nil => exact .refl _
  | cons entry rest ih =>
    obtain ⟨other, old⟩ := entry
    obtain ⟨hnone, hrest⟩ := List.nodup_cons.mp h
    rw [setEntry]
    by_cases heq : other = pattern
    · have hall : rest.filter (·.1 ≠ pattern) = rest := by
        apply List.filter_eq_self.mpr
        intro entry hentry
        have hne : entry.1 ≠ pattern := fun hpattern =>
          hnone (List.mem_map.mpr ⟨entry, hentry, hpattern.trans heq.symm⟩)
        exact decide_eq_true hne
      rw [if_pos heq, List.filter_cons_of_neg (by simpa using heq), hall]
    · rw [if_neg heq, List.filter_cons_of_pos (by simpa using heq)]
      exact ((ih hrest).cons _).trans (.swap _ _ _)

theorem mem_setEntry_iff (h : AreDistinct entries) :
    a ∈ setEntry pattern new entries ↔ a = (pattern, new) ∨ (a ∈ entries ∧ a.1 ≠ pattern) := by
  rw [(setEntry_perm h).mem_iff, List.mem_cons, List.mem_filter, decide_eq_true_iff]

theorem AreDistinct.setEntry (h : AreDistinct entries) :
    AreDistinct (setEntry pattern new entries) := by
  have hset : AreDistinct ((pattern, new) :: entries.filter (·.1 ≠ pattern)) := by
    refine List.nodup_cons.mpr ⟨?_, h.sublist List.filter_sublist⟩
    intro hmem
    obtain ⟨entry, hentry, hpattern⟩ := List.mem_map.mp hmem
    exact of_decide_eq_true (List.mem_filter.mp hentry).2 hpattern
  exact hset.perm (setEntry_perm h).symm

theorem IsOlder.trans (hab : IsOlder a b) (hbc : IsOlder b c) : IsOlder a c := by
  unfold IsOlder at *
  rcases hab with hab | ⟨hab, hpattern⟩
  · exact Or.inl (by omega)
  · rcases hbc with hbc | ⟨hbc, hnext⟩
    · exact Or.inl (by omega)
    · exact Or.inr ⟨hab.trans hbc, String.lt_trans hpattern hnext⟩

theorem IsOlder.asymm (h : IsOlder a b) : ¬ IsOlder b a := by
  unfold IsOlder at *
  rintro (hba | ⟨hba, hpattern⟩)
  · omega
  · rcases h with h | ⟨-, h⟩
    · omega
    · exact String.lt_asymm h hpattern

theorem dropsBefore_iff :
    dropsBefore a b = true ↔
      a.2.timestamp < b.2.timestamp ∨ (a.2.timestamp = b.2.timestamp ∧ a.1 ≤ b.1) := by
  have hpattern : (compare a.1 b.1).isLE = true ↔ a.1 ≤ b.1 := by
    rw [Ordering.isLE_iff_ne_gt, Std.OrientedCmp.gt_iff_lt, ← String.not_lt]
    exact not_congr compareOfLessAndEq_eq_lt
  rw [dropsBefore, Ordering.isLE_then_iff_or, Nat.compare_eq_lt, Nat.compare_eq_eq, hpattern]

theorem isOlder_of_dropsBefore (h : dropsBefore a b = true) (hne : a.1 ≠ b.1) : IsOlder a b := by
  refine (dropsBefore_iff.mp h).imp_right fun ⟨htime, hpattern⟩ => ⟨htime, ?_⟩
  rw [← String.not_le]
  exact fun hback => hne (String.le_antisymm hpattern hback)

theorem pairwise_isOlder_sort (h : AreDistinct entries) :
    (entries.mergeSort dropsBefore).Pairwise IsOlder := by
  have hsorted : (entries.mergeSort dropsBefore).Pairwise fun a b => dropsBefore a b = true := by
    apply List.pairwise_mergeSort
    · intro a b c hab hbc
      rw [dropsBefore_iff] at *
      rcases hab with hab | ⟨hab, hpattern⟩
      · exact Or.inl (by omega)
      · rcases hbc with hbc | ⟨hbc, hnext⟩
        · exact Or.inl (by omega)
        · exact Or.inr ⟨hab.trans hbc, String.le_trans hpattern hnext⟩
    · intro a b
      rw [Bool.or_eq_true, dropsBefore_iff, dropsBefore_iff]
      rcases Nat.lt_trichotomy a.2.timestamp b.2.timestamp with hlt | heq | hgt
      · exact Or.inl (Or.inl hlt)
      · exact (String.le_total a.1 b.1).imp (fun h => Or.inr ⟨heq, h⟩) fun h => Or.inr ⟨heq.symm, h⟩
      · exact Or.inr (Or.inl hgt)
  have hdistinct : (entries.mergeSort dropsBefore).Pairwise fun a b => a.1 ≠ b.1 :=
    List.pairwise_map.mp (h.perm (List.mergeSort_perm _ _).symm)
  exact (hsorted.and hdistinct).imp fun ⟨hle, hne⟩ => isOlder_of_dropsBefore hle hne

/-- Ordered by age, the entries that are not too old are those that are dropped for there being too
many, and then those that stay. -/
theorem exists_split (settings : CacheSettings) (now : Nat) (h : AreDistinct entries) :
    ∃ dropped newest, (dropped ++ newest).Pairwise IsOlder ∧
      (dropped ++ newest).Perm (unexpired settings now entries) ∧
      dropped.length = (unexpired settings now entries).length - settings.maxEntries ∧
      (retained settings now entries).Perm newest := by
  let sorted := (unexpired settings now entries).mergeSort dropsBefore
  let count := (unexpired settings now entries).length - settings.maxEntries
  have hfresh : AreDistinct (unexpired settings now entries) := h.sublist List.filter_sublist
  have hperm : (sorted.take count ++ sorted.drop count).Perm (unexpired settings now entries) := by
    rw [List.take_append_drop]
    exact List.mergeSort_perm _ _
  have hapart := hfresh.perm hperm.symm
  rw [AreDistinct, List.map_append, List.nodup_append] at hapart
  refine ⟨sorted.take count, sorted.drop count, ?_, hperm, ?_, ?_⟩
  · rw [List.take_append_drop]
    exact pairwise_isOlder_sort hfresh
  · rw [List.length_take, List.length_mergeSort]
    omega
  · have hstay : (sorted.drop count).filter
        (fun entry => entry.1 ∉ excess settings (unexpired settings now entries)) =
          sorted.drop count := by
      apply List.filter_eq_self.mpr
      intro entry hentry
      refine decide_eq_true fun hmem => ?_
      exact hapart.2.2 entry.1 hmem entry.1 (List.mem_map_of_mem hentry) rfl
    exact hstay ▸ retained_perm entries

theorem areNewest_retained (settings : CacheSettings) (now : Nat) (h : AreDistinct entries) :
    AreNewest settings.maxEntries (unexpired settings now entries)
      (retained settings now entries) := by
  obtain ⟨dropped, newest, hsorted, hperm, hcount, hkept⟩ := exists_split settings now h
  have hlength := hperm.length_eq
  rw [List.length_append] at hlength
  constructor
  · exact List.filter_sublist
  · rw [hkept.length_eq]
    omega
  · intro entry hentry hgone other hother
    have hdropped : entry ∈ dropped :=
      (List.mem_append.mp (hperm.mem_iff.mpr hentry)).resolve_right
        fun hnewest => hgone (hkept.mem_iff.mpr hnewest)
    exact (List.pairwise_append.mp hsorted).2.2 entry hdropped other (hkept.mem_iff.mp hother)

theorem AreNewest.lt_length {count : Nat} (h : AreNewest count entries kept) (hmem : a ∈ entries)
    (hgone : a ∉ kept) : count < entries.length := by
  have hne : kept.length ≠ entries.length := by
    intro heq
    rw [h.sublist.eq_of_length heq] at hgone
    exact hgone hmem
  have hle := h.sublist.length_le
  have hlength := h.length_eq
  omega

/-- Whether an entry is among the newest ones is told by how many are newer than itself. -/
theorem AreNewest.mem_iff {count : Nat} (h : AreNewest count entries kept)
    (hdistinct : entries.Nodup) :
    a ∈ kept ↔ a ∈ entries ∧ entries.countP (IsOlder a ·) < count := by
  have hkept : kept.Nodup := hdistinct.sublist h.sublist
  have hlength := h.length_eq
  rw [List.countP_eq_length_filter]
  constructor
  · intro hmem
    refine ⟨h.sublist.subset hmem, ?_⟩
    have hcons : (a :: entries.filter (IsOlder a ·)).Nodup := by
      refine List.nodup_cons.mpr ⟨fun hself => ?_, hdistinct.filter _⟩
      have hself := of_decide_eq_true (List.mem_filter.mp hself).2
      exact hself.asymm hself
    have hsubset : a :: entries.filter (IsOlder a ·) ⊆ kept := by
      refine List.cons_subset.mpr ⟨hmem, fun other hother => ?_⟩
      obtain ⟨hother, hnewer⟩ := List.mem_filter.mp hother
      by_contra hgone
      exact (of_decide_eq_true hnewer).asymm (h.older other hother hgone a hmem)
    have hle := (List.subperm_of_subset hcons hsubset).length_le
    rw [List.length_cons] at hle
    omega
  · rintro ⟨hmem, hlt⟩
    by_contra hgone
    have hnewer : kept ⊆ entries.filter (IsOlder a ·) := by
      intro other hother
      have holder := h.older a hmem hgone other hother
      exact List.mem_filter.mpr ⟨h.sublist.subset hother, decide_eq_true holder⟩
    have hle := (List.subperm_of_subset hkept hnewer).length_le
    have hmore := h.lt_length hmem hgone
    omega

theorem AreNewest.perm {count : Nat} {others keptOthers : List (String × CacheEntry)}
    (h : AreNewest count entries kept) (hothers : AreNewest count others keptOthers)
    (hdistinct : entries.Nodup) (hperm : entries.Perm others) : kept.Perm keptOthers := by
  have hnodup : others.Nodup := hperm.nodup_iff.mp hdistinct
  apply (List.perm_ext_iff_of_nodup (hdistinct.sublist h.sublist)
    (hnodup.sublist hothers.sublist)).mpr
  intro entry
  rw [h.mem_iff hdistinct, hothers.mem_iff hnodup, hperm.mem_iff, hperm.countP_eq]

/-- Which entries stay does not take sorting them to tell. -/
theorem retained_eq (settings : CacheSettings) (now : Nat) (h : AreDistinct entries) :
    retained settings now entries = (unexpired settings now entries).filter fun entry =>
      (unexpired settings now entries).countP (IsOlder entry ·) < settings.maxEntries := by
  have hnewest := areNewest_retained settings now h
  have hnodup := (h.sublist List.filter_sublist : AreDistinct (unexpired settings now entries)).nodup
  refine List.filter_congr fun entry hentry => ?_
  rw [Bool.eq_iff_iff, decide_eq_true_iff]
  have hstays : entry ∈ retained settings now entries ↔
      entry.1 ∉ excess settings (unexpired settings now entries) := by
    rw [retained, List.mem_filter, decide_eq_true_iff, and_iff_right hentry]
  rw [decide_eq_true_iff, ← hstays, hnewest.mem_iff hnodup, and_iff_right hentry]

/-- Whatever times the entries are from, those that stay after a write are the newest of the ones that
are not too old, none of which goes unless they are more than the cache keeps. Neither the order in
which the cache holds them nor the age that the request has asked for makes a difference. -/
theorem store_keeps_newest (settings : CacheSettings) {cache : Cache} (h : AreDistinct cache.entries)
    (now : Nat) (pattern : String) (files : List String) :
    let kept := (cache.store settings now pattern files).entries
    (∃ fresh : List (String × CacheEntry), fresh.Nodup ∧
      (∀ entry, entry ∈ fresh ↔
        (entry = (pattern, ⟨now, files⟩) ∨ (entry ∈ cache.entries ∧ entry.1 ≠ pattern)) ∧
          now - entry.2.timestamp ≤ settings.timeToLive) ∧
      AreNewest settings.maxEntries fresh kept ∧
      ∀ entry ∈ fresh, entry ∉ kept → settings.maxEntries < fresh.length) ∧
    (∀ other : Cache, other.entries.Perm cache.entries →
      (other.store settings now pattern files).entries.Perm kept) ∧
    ∀ (request : Request) (scan : String → Except ListingError (List String)),
      request.pattern = pattern → cache.fresh? settings now request = none →
        scan pattern = .ok files →
          (cache.discover settings now request scan).1.entries = kept := by
  intro kept
  have hwritten : AreDistinct (setEntry pattern ⟨now, files⟩ cache.entries) := h.setEntry
  have hnewest := areNewest_retained settings now hwritten
  have hnodup := hwritten.nodup.filter
    fun entry : String × CacheEntry => decide (now - entry.2.timestamp ≤ settings.timeToLive)
  refine ⟨⟨_, hnodup, ?_, hnewest, fun entry => hnewest.lt_length⟩, ?_, ?_⟩
  · intro entry
    rw [List.mem_filter, mem_setEntry_iff h, decide_eq_true_iff]
  · intro other hperm
    have hother : AreDistinct other.entries := h.perm hperm.symm
    have hset : (setEntry pattern ⟨now, files⟩ other.entries).Perm
        (setEntry pattern ⟨now, files⟩ cache.entries) :=
      ((setEntry_perm hother).trans ((hperm.filter _).cons _)).trans (setEntry_perm h).symm
    exact (areNewest_retained settings now hother.setEntry).perm hnewest
      (hother.setEntry.nodup.filter _) (hset.filter _)
  · rintro request scan rfl hmiss hscan
    rw [discover_of_scan hmiss scan hscan]
    rfl

theorem store_keeps_newest_of_ties :
    let settings : CacheSettings := { timeToLive := 400, maxEntries := 2 }
    let cache : Cache := {
      entries := [("c", ⟨100, ["c"]⟩), ("e", ⟨500, ["e"]⟩), ("b", ⟨900, ["b"]⟩), ("a", ⟨99, ["a"]⟩)] }
    let kept := (cache.store settings 500 "d" ["d"]).entries
    AreDistinct cache.entries ∧ kept = [("e", ⟨500, ["e"]⟩), ("b", ⟨900, ["b"]⟩)] ∧
      ∃ fresh, AreNewest settings.maxEntries fresh kept ∧ fresh.length = 4 ∧
        ("a", ⟨99, ["a"]⟩) ∉ fresh := by
  intro settings cache kept
  have hdistinct : AreDistinct cache.entries := by decide +kernel
  have hwritten : AreDistinct (setEntry "d" ⟨500, ["d"]⟩ cache.entries) := by decide +kernel
  have hkept : kept = [("e", ⟨500, ["e"]⟩), ("b", ⟨900, ["b"]⟩)] :=
    (retained_eq settings 500 hwritten).trans (by decide +kernel)
  obtain ⟨⟨fresh, hnodup, hmem, hnewest, -⟩, -⟩ :=
    store_keeps_newest settings hdistinct 500 "d" ["d"]
  have hperm : fresh.Perm (unexpired settings 500 (setEntry "d" ⟨500, ["d"]⟩ cache.entries)) := by
    apply (List.perm_ext_iff_of_nodup hnodup (hwritten.nodup.filter _)).mpr
    intro entry
    rw [hmem, List.mem_filter, mem_setEntry_iff hdistinct, decide_eq_true_iff]
  refine ⟨hdistinct, hkept, fresh, hnewest, ?_, ?_⟩
  · exact hperm.length_eq
  · exact fun hold => absurd ((hmem _).mp hold).2 (by decide +kernel)

end ScenarioAtlas.Cache
