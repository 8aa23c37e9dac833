import ScenarioAtlas.Proofs.Listing.Eviction
import ScenarioAtlas.Proofs.Listing.Traffic

/-!
# What a scan leaves in the cache

The list that a scan has found is evicted at once where the cache is full of entries that are newer
than itself: those from a later time, and those from the same time for a pattern that comes later.
Otherwise it stays, and answers the requests that follow. So a list is only sure to stay while the
clock moves on between one scan and the next.
-/

namespace ScenarioAtlas

set_option autoImplicit false

namespace Cache

variable {settings : CacheSettings} {cache : Cache} {now : Nat} {pattern : String}

theorem AreDistinct.peek?_eq_some_iff (h : AreDistinct cache.entries) {found : CacheEntry} :
    cache.peek? pattern = some found ↔ (pattern, found) ∈ cache.entries :=
  lookup_eq_some_iff_mem h

theorem AreDistinct.store (h : AreDistinct cache.entries) (settings : CacheSettings) (now : Nat)
    (pattern : String) (files : List String) :
    AreDistinct (cache.store settings now pattern files).entries :=
  h.setEntry.sublist (List.filter_sublist.trans List.filter_sublist)

def newerThan (cache : Cache) (entry : String × CacheEntry) : List (String × CacheEntry) :=
  cache.entries.filter fun other => other.1 ≠ entry.1 ∧ IsOlder entry other

/-- An entry that has just been written is newer than no more entries than it would be without the
ones that are too old, since no entry that is newer than it can be. -/
theorem countP_isOlder_written (h : AreDistinct cache.entries) (settings : CacheSettings)
    (files : List String) :
    (unexpired settings now (setEntry pattern ⟨now, files⟩ cache.entries)).countP
        (IsOlder (pattern, ⟨now, files⟩) ·) =
      (cache.newerThan (pattern, ⟨now, files⟩)).length := by
  let new : String × CacheEntry := (pattern, ⟨now, files⟩)
  have hself : ¬ IsOlder new new := fun hself => hself.asymm hself
  have hfresh : ∀ other : String × CacheEntry, IsOlder new other →
      now - other.2.timestamp ≤ settings.timeToLive := by
    intro other holder
    have hle : now ≤ other.2.timestamp := by
      rcases holder with hlt | ⟨heq, -⟩
      · exact Nat.le_of_lt hlt
      · exact Nat.le_of_eq heq
    omega
  calc (unexpired settings now (setEntry pattern ⟨now, files⟩ cache.entries)).countP (IsOlder new ·)
      = (setEntry pattern ⟨now, files⟩ cache.entries).countP (IsOlder new ·) := by
        rw [unexpired, List.countP_filter]
        refine List.countP_congr fun other _ => ?_
        simpa using hfresh other
    _ = (new :: cache.entries.filter (·.1 ≠ pattern)).countP (IsOlder new ·) :=
        (setEntry_perm h).countP_eq _
    _ = (cache.entries.filter (·.1 ≠ pattern)).countP (IsOlder new ·) :=
        List.countP_cons_of_neg (by simpa using hself)
    _ = (cache.newerThan new).length := by
        rw [List.countP_filter, List.countP_eq_length_filter, newerThan]
        congr 1
        refine List.filter_congr fun other _ => ?_
        rw [Bool.and_comm, Bool.decide_and]

theorem peek?_store (h : AreDistinct cache.entries) (settings : CacheSettings) (now : Nat)
    (pattern : String) (files : List String) :
    (cache.store settings now pattern files).peek? pattern =
      if (cache.newerThan (pattern, ⟨now, files⟩)).length < settings.maxEntries then
        some ⟨now, files⟩
      else none := by
  have hwritten : AreDistinct (setEntry pattern ⟨now, files⟩ cache.entries) := h.setEntry
  have hstays : (pattern, ⟨now, files⟩) ∈ (cache.store settings now pattern files).entries ↔
      (cache.newerThan (pattern, ⟨now, files⟩)).length < settings.maxEntries := by
    rw [← countP_isOlder_written h settings files]
    have hnew : (pattern, ⟨now, files⟩) ∈
        unexpired settings now (setEntry pattern ⟨now, files⟩ cache.entries) := by
      refine List.mem_filter.mpr ⟨(mem_setEntry_iff h).mpr (Or.inl rfl), decide_eq_true ?_⟩
      show now - now ≤ settings.timeToLive
      omega
    have hnewest := areNewest_retained settings now hwritten
    exact (hnewest.mem_iff (hwritten.nodup.filter _)).trans (and_iff_right hnew)
  have hdistinct := h.store settings now pattern files
  split
  case isTrue hless => exact hdistinct.peek?_eq_some_iff.mpr (hstays.mpr hless)
  case isFalse hmore =>
    rw [Option.eq_none_iff_forall_ne_some]
    intro found hfound
    have hmem := hdistinct.peek?_eq_some_iff.mp hfound
    rcases (mem_setEntry_iff h).mp (mem_of_mem_retained hmem) with heq | ⟨-, hne⟩
    · exact hmore (hstays.mp (heq ▸ hmem))
    · exact hne rfl

end Cache

namespace Traffic

open Cache

variable {settings : CacheSettings} {traffic : Traffic}

theorem distinct_step (h : AreDistinct traffic.cache.entries) (act : Act) :
    AreDistinct (traffic.step settings act).cache.entries := by
  rcases step_entries settings traffic act with
    hsame | ⟨-, hsublist⟩ | ⟨id, call, files, -, -, -, -, hcache⟩
  · exact hsame ▸ h
  · exact h.sublist hsublist
  · rw [hcache]
    exact h.store settings _ _ files

theorem distinct_run (settings : CacheSettings) (start : Nat) (acts : List Act) :
    AreDistinct (run settings start acts).cache.entries := by
  induction acts using List.reverseRecOn with
  | nil => exact List.nodup_nil
  | append_singleton acts act ih =>
    rw [run, List.foldl_append]
    exact distinct_step ih act

/-- In whatever state the cache is, a scan leaves its list there, from the time at which the request
began, exactly if the newer entries for other patterns are fewer than the cache keeps; it does so
whenever they are all from earlier times. A list that is left answers the requests for its pattern
that follow, with no call for a scan, for as long as they want it no newer. -/
theorem peek?_of_scan (settings : CacheSettings) (start : Nat) (acts : List Act) (now : Nat)
    {request : Request}
    (hmiss : (run settings start acts).cache.fresh? settings now request = none)
    (scan : String → Except ListingError (List String)) {files : List String}
    (hscan : scan request.pattern = .ok files) :
    let cache := (run settings start acts).cache
    let newer := cache.newerThan (request.pattern, ⟨now, files⟩)
    let later := (cache.discover settings now request scan).1
    (cache.discover settings now request scan).2 = files ∧
      later.peek? request.pattern =
        (if newer.length < settings.maxEntries then some ⟨now, files⟩ else none) ∧
      ((∀ entry ∈ cache.entries, entry.1 ≠ request.pattern → entry.2.timestamp < now) →
        newer = []) ∧
      (newer.length < settings.maxEntries → ∀ (next : Nat) (maxAge : Option Nat)
        (rescan : String → Except ListingError (List String)),
        next - now < maxAge.getD settings.timeToLive →
          later.discover settings next { pattern := request.pattern, maxAge } rescan =
            ({ later with hits := later.hits + 1 }, files)) := by
  intro cache newer later
  have hdistinct : AreDistinct cache.entries := distinct_run settings start acts
  have hdiscover := discover_of_scan hmiss scan hscan
  have hpeek : later.peek? request.pattern =
      if newer.length < settings.maxEntries then some ⟨now, files⟩ else none := by
    show (cache.discover settings now request scan).1.peek? request.pattern = _
    rw [hdiscover]
    exact peek?_store hdistinct settings now request.pattern files
  refine ⟨by rw [hdiscover], hpeek, ?_, ?_⟩
  · intro hearlier
    apply List.filter_eq_nil_iff.mpr
    intro entry hentry hnewer
    obtain ⟨hne, holder⟩ := of_decide_eq_true hnewer
    have hlt := hearlier entry hentry hne
    unfold IsOlder at holder
    dsimp only at holder
    omega
  · intro hless next maxAge rescan hage
    rw [if_pos hless] at hpeek
    have hfresh : later.fresh? settings next { pattern := request.pattern, maxAge } =
        some ⟨now, files⟩ := fresh?_eq_some_iff.mpr ⟨rfl, hpeek, hage⟩
    exact discover_of_fresh hfresh rescan

theorem peek?_of_scan_after_clock_set_back :
    let settings : CacheSettings := { maxEntries := 2 }
    let acts := .setClock 900 :: .begin { pattern := "a" } :: turnsOf 0 (.ok ["a.feature"])
    let request : Request := { pattern := "b", force := true }
    let cache := (run settings 0 acts).cache
    let later := (cache.discover settings 400 request fun _ => .ok ["b.feature"]).1
    cache.fresh? settings 400 request = none ∧
      (cache.newerThan ("b", ⟨400, ["b.feature"]⟩)).length = 1 ∧
      later.peek? "b" = some ⟨400, ["b.feature"]⟩ ∧
      (later.discover settings 500 { pattern := "b", maxAge := some 101 } fun _ => .ok []).2 =
        ["b.feature"] := by
  intro settings acts request cache later
  have hmiss : cache.fresh? settings 400 request = none := rfl
  have hnewer : (cache.newerThan ("b", ⟨400, ["b.feature"]⟩)).length = 1 := by decide +kernel
  obtain ⟨-, hpeek, -, hhit⟩ := peek?_of_scan settings 0 acts 400 hmiss
    (fun _ => .ok ["b.feature"]) rfl
  have hless : (cache.newerThan ("b", ⟨400, ["b.feature"]⟩)).length < settings.maxEntries := by
    rw [hnewer]
    decide
  refine ⟨hmiss, hnewer, hpeek.trans (if_pos hless), ?_⟩
  exact congrArg Prod.snd (hhit hless 500 (some 101) (fun _ => .ok []) (by decide))

/-- Of two lists found at the same time the later one can be evicted as it is stored, so that the next
request for its pattern scans again. -/
theorem peek?_of_scan_at_same_time :
    let settings : CacheSettings := { maxEntries := 1 }
    let cache := (run settings 0 (.begin { pattern := "b" } :: turnsOf 0 (.ok ["b.feature"]))).cache
    let found := cache.discover settings 0 { pattern := "a" } fun _ => .ok ["a.feature"]
    found.2 = ["a.feature"] ∧ found.1.peek? "a" = none ∧
      (found.1.discover settings 0 { pattern := "a" } fun _ => .ok ["again.feature"]).2 =
        ["again.feature"] := by
  intro settings cache found
  have hcache : cache = { entries := [("b", ⟨0, ["b.feature"]⟩)], misses := 1 } := by decide +kernel
  have hmiss : cache.fresh? settings 0 { pattern := "a" } = none := by
    rw [hcache]
    decide +kernel
  have hfound : found = (({ cache with misses := cache.misses + 1 } : Cache).store settings 0 "a"
      ["a.feature"], ["a.feature"]) := discover_of_scan hmiss _ rfl
  have hpeek : found.1.peek? "a" = none := by
    have hmore : ¬ (cache.newerThan ("a", ⟨0, ["a.feature"]⟩)).length < settings.maxEntries := by
      rw [hcache]
      decide +kernel
    rw [hfound]
    exact (peek?_store (distinct_run settings 0 _) settings 0 "a" ["a.feature"]).trans (if_neg hmore)
  have hagain : found.1.fresh? settings 0 { pattern := "a" } = none := by
    simp [fresh?, hpeek]
  refine ⟨by rw [hfound], hpeek, ?_⟩
  rw [discover_of_scan hagain _ rfl]

end Traffic

end ScenarioAtlas
