import ScenarioAtlas.Listing.Cache

/-!
# What the cache of listings holds

Every entry was there before or is the one that was just stored, and they are no more than the cache
keeps. A request is answered by an entry or by a scan.
-/

namespace ScenarioAtlas.Cache

set_option autoImplicit false

variable {settings : CacheSettings} {cache : Cache} {now : Nat}
variable {entry : String × CacheEntry}

theorem mem_entries_of_peek? {pattern : String} {found : CacheEntry}
    (h : cache.peek? pattern = some found) : (pattern, found) ∈ cache.entries := by
  obtain ⟨before, after, hsplit, -⟩ := List.lookup_eq_some_iff.mp h
  rw [hsplit]
  exact List.mem_append_right _ List.mem_cons_self

theorem fresh?_eq_some_iff {request : Request} {found : CacheEntry} :
    cache.fresh? settings now request = some found ↔
      request.force = false ∧ cache.peek? request.pattern = some found ∧
        now - found.timestamp < request.maxAge.getD settings.timeToLive := by
  unfold fresh?
  cases request.force with
  | true => simp
  | false => simp [Option.filter_eq_some_iff]

theorem mem_setEntry {pattern : String} {new : CacheEntry} {entries : List (String × CacheEntry)}
    (h : entry ∈ setEntry pattern new entries) : entry = (pattern, new) ∨ entry ∈ entries := by
  induction entries with
  | nil => exact Or.inl (List.mem_singleton.mp h)
  | cons other rest ih =>
    obtain ⟨name, old⟩ := other
    rw [setEntry] at h
    split at h
    · rcases List.mem_cons.mp h with h | h
      · exact Or.inl h
      · exact Or.inr (List.mem_cons_of_mem _ h)
    · rcases List.mem_cons.mp h with h | h
      · exact Or.inr (h ▸ List.mem_cons_self)
      · exact (ih h).imp_right (List.mem_cons_of_mem _)

theorem mem_of_mem_retained {entries : List (String × CacheEntry)}
    (h : entry ∈ retained settings now entries) : entry ∈ entries :=
  (List.filter_sublist.trans List.filter_sublist).subset h

/-- The entries that stay are found behind the ones that are dropped, in the order of their age. -/
theorem retained_perm (entries : List (String × CacheEntry)) :
    (retained settings now entries).Perm
      ((((unexpired settings now entries).mergeSort dropsBefore).drop
        ((unexpired settings now entries).length - settings.maxEntries)).filter
          fun entry => entry.1 ∉ excess settings (unexpired settings now entries)) := by
  let kept := unexpired settings now entries
  let sorted := kept.mergeSort dropsBefore
  let count := kept.length - settings.maxEntries
  let stays : String × CacheEntry → Bool := fun entry => entry.1 ∉ excess settings kept
  have hdropped : (sorted.take count).filter stays = [] := by
    apply List.filter_eq_nil_iff.mpr
    intro entry hentry hstays
    exact of_decide_eq_true hstays (List.mem_map_of_mem hentry)
  have hsplit : sorted.filter stays = (sorted.drop count).filter stays := by
    rw [← List.take_append_drop count sorted, List.filter_append, List.take_append_drop,
      hdropped, List.nil_append]
  exact hsplit ▸ ((List.mergeSort_perm kept dropsBefore).filter stays).symm

theorem length_retained_le (entries : List (String × CacheEntry)) :
    (retained settings now entries).length ≤ settings.maxEntries := by
  rw [(retained_perm entries).length_eq]
  apply Nat.le_trans (List.length_filter_le _ _)
  rw [List.length_drop, List.length_mergeSort]
  omega

theorem mem_entries_of_store {pattern : String} {files : List String}
    (h : entry ∈ (cache.store settings now pattern files).entries) :
    entry = (pattern, ⟨now, files⟩) ∨ entry ∈ cache.entries :=
  mem_setEntry (mem_of_mem_retained h)

theorem discover_of_fresh {request : Request} {found : CacheEntry}
    (h : cache.fresh? settings now request = some found)
    (scan : String → Except ListingError (List String)) :
    cache.discover settings now request scan = ({ cache with hits := cache.hits + 1 }, found.files) := by
  have hlookup : cache.lookup settings now request =
      ({ cache with hits := cache.hits + 1 }, some found.files) := by
    simp [lookup, h]
  simp [discover, hlookup]

theorem discover_of_scan {request : Request} (h : cache.fresh? settings now request = none)
    (scan : String → Except ListingError (List String)) {files : List String}
    (hscan : scan request.pattern = .ok files) :
    cache.discover settings now request scan =
      (({ cache with misses := cache.misses + 1 } : Cache).store settings now request.pattern files,
        files) := by
  have hlookup : cache.lookup settings now request =
      ({ cache with misses := cache.misses + 1 }, none) := by
    simp [lookup, h]
  simp [discover, hlookup, hscan]

/-- A request is answered by what is kept for its pattern, and then no entry changes, or by a scan,
and then no entry but the one of the scan is new. -/
theorem discover_cases (settings : CacheSettings) (cache : Cache) (now : Nat)
    (request : Request) {scan : String → Except ListingError (List String)}
    {files : List String} (hscan : scan request.pattern = .ok files) :
    (∃ kept, (request.pattern, kept) ∈ cache.entries ∧
      (cache.discover settings now request scan).2 = kept.files ∧
      (cache.discover settings now request scan).1.entries = cache.entries) ∨
    ((cache.discover settings now request scan).2 = files ∧
      ∀ entry ∈ (cache.discover settings now request scan).1.entries,
        entry = (request.pattern, ⟨now, files⟩) ∨ entry ∈ cache.entries) := by
  cases hfresh : cache.fresh? settings now request with
  | some kept =>
    left
    obtain ⟨-, hpeek, -⟩ := fresh?_eq_some_iff.mp hfresh
    rw [discover_of_fresh hfresh]
    exact ⟨kept, mem_entries_of_peek? hpeek, rfl, rfl⟩
  | none =>
    right
    rw [discover_of_scan hfresh scan hscan]
    exact ⟨rfl, fun entry hentry => mem_entries_of_store hentry⟩

end ScenarioAtlas.Cache
