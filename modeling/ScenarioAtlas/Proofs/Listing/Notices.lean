import ScenarioAtlas.Listing.Cache
import ScenarioAtlas.Proofs.Glob.Reading

/-!
# What a notice of a file takes out of the cache

A pattern that does not start at the root may be matched against a path from any folder on, so the
list for it changes with every file that it matches below some folder. A notice that a file came or
went takes away the entries of all patterns that match its path so, and of those that are no
patterns. All others stay as they are, but for the one of the empty pattern: folders in front of
nothing match everything.
-/

namespace ScenarioAtlas.Cache

set_option autoImplicit false

/-- Whether a pattern matches a path, or what is below a folder of it where the pattern does not start
at the root. -/
def ListsAt (pattern : String) (path : List Char) : Prop :=
  Glob.patternMatches pattern path = true ∨
    (Path.isRooted pattern.toList = false ∧
      ∃ folders below, path = folders ++ '/' :: below ∧ Glob.patternMatches pattern below = true)

variable {cache : Cache} {path : List Char} {pattern : String} {tokens : List GlobToken}

theorem listsAt_of_patternMatches (h : Glob.patternMatches pattern path = true)
    (hpath : path.head? ≠ some '/') :
    ListsAt pattern path ∧ ∀ folders, ListsAt pattern (folders ++ '/' :: path) := by
  have hroot : Path.isRooted pattern.toList = false := by
    rw [Bool.eq_false_iff]
    intro hroot
    rw [Glob.patternMatches_eq_false_of_isRooted hroot hpath] at h
    cases h
  exact ⟨Or.inl h, fun folders => Or.inr ⟨hroot, folders, path, rfl, h⟩⟩

theorem isUnaffected_iff_of_read (h : Glob.read pattern = .ok tokens) :
    isUnaffected path pattern = true ↔
      Glob.patternMatches pattern path = false ∧ (Path.isRooted pattern.toList = true ∨
        Glob.patternMatches ("**/" ++ pattern) path = false) := by
  simp [isUnaffected, h, Glob.patternMatches_of_read h]

/-- The lists that stay right are those for patterns that match nowhere in the path; the empty pattern
is an exception. -/
theorem isUnaffected_iff :
    isUnaffected path pattern = true ↔
      (∃ tokens, Glob.read pattern = .ok tokens) ∧ pattern ≠ "" ∧ ¬ ListsAt pattern path := by
  constructor
  · intro h
    obtain ⟨tokens, hread⟩ : ∃ tokens, Glob.read pattern = .ok tokens := by
      cases hread : Glob.read pattern with
      | ok tokens => exact ⟨tokens, rfl⟩
      | error error => simp [isUnaffected, hread] at h
    obtain ⟨hwhole, hbelow⟩ := (isUnaffected_iff_of_read hread).mp h
    refine ⟨⟨tokens, hread⟩, ?_, ?_⟩
    · rintro rfl
      have hall : Glob.patternMatches ("**/" ++ "") path = true := rfl
      rw [hall] at hbelow
      rcases hbelow with hroot | hfolders
      · exact absurd hroot (by decide)
      · cases hfolders
    · rintro (hmatch | ⟨hroot, folders, below, rfl, hmatch⟩)
      · exact absurd hmatch (Bool.eq_false_iff.mp hwhole)
      · rw [hroot, Glob.patternMatches_folders hmatch folders] at hbelow
        rcases hbelow with hbelow | hbelow <;> cases hbelow
  · rintro ⟨⟨tokens, hread⟩, hsome, hnowhere⟩
    refine (isUnaffected_iff_of_read hread).mpr ⟨?_, ?_⟩
    · exact Bool.eq_false_iff.mpr fun hmatch => hnowhere (Or.inl hmatch)
    · cases hroot : Path.isRooted pattern.toList with
      | true => exact Or.inl rfl
      | false =>
        right
        rw [Bool.eq_false_iff]
        intro hfolders
        rcases (Glob.patternMatches_folders_iff hread hsome).mp hfolders with hmatch | hbelow
        · exact hnowhere (Or.inl hmatch)
        · exact hnowhere (Or.inr ⟨hroot, hbelow⟩)

theorem mem_invalidateMatching_iff {path : String} {entry : String × CacheEntry} :
    entry ∈ (cache.invalidateMatching path).1.entries ↔
      entry ∈ cache.entries ∧ (∃ tokens, Glob.read entry.1 = .ok tokens) ∧ entry.1 ≠ "" ∧
        ¬ ListsAt entry.1 (Path.normalize path.toList) :=
  List.mem_filter.trans (and_congr_right fun _ => isUnaffected_iff)

theorem length_invalidateMatching (cache : Cache) (path : String) :
    (cache.invalidateMatching path).1.entries.length + (cache.invalidateMatching path).2 =
      cache.entries.length :=
  Nat.add_sub_of_le (List.length_filter_le _ _)

/-- A notice of a file takes away every entry for what is no pattern and for a pattern that matches the
path, or what is below a folder of it unless the pattern starts at the root. It leaves every entry for
a pattern that matches the path neither as it is nor, unless it starts at the root, with folders in
front. Nothing else of the cache changes, and the number that is told is that of the entries taken
away. -/
theorem invalidateMatching_drops_listed (cache : Cache) (path : String) :
    let seen := Path.normalize path.toList
    let later := (cache.invalidateMatching path).1
    (∀ entry ∈ cache.entries,
      (∀ tokens, Glob.read entry.1 ≠ .ok tokens) ∨ ListsAt entry.1 seen →
        entry ∉ later.entries) ∧
      (∀ entry ∈ cache.entries, ∀ tokens, Glob.read entry.1 = .ok tokens →
        Glob.patternMatches entry.1 seen = false →
        Path.isRooted entry.1.toList = true ∨
          Glob.patternMatches ("**/" ++ entry.1) seen = false →
        entry ∈ later.entries) ∧
      later.entries.Sublist cache.entries ∧
      later = { cache with entries := later.entries } ∧
      later.entries.length + (cache.invalidateMatching path).2 = cache.entries.length := by
  intro seen later
  refine ⟨?_, ?_, List.filter_sublist, rfl, length_invalidateMatching cache path⟩
  · intro entry _ hlisted hmem
    obtain ⟨-, ⟨tokens, hread⟩, -, hnowhere⟩ := mem_invalidateMatching_iff.mp hmem
    rcases hlisted with hnone | hlists
    · exact hnone tokens hread
    · exact hnowhere hlists
  · intro entry hentry tokens hread hwhole hbelow
    have hunaffected := (isUnaffected_iff_of_read hread).mpr ⟨hwhole, hbelow⟩
    exact List.mem_filter.mpr ⟨hentry, hunaffected⟩

theorem invalidateMatching_drops_listed_of_new_file :
    let entries : List (String × CacheEntry) :=
      [("**/*.feature", ⟨1, ["/ws/old.feature"]⟩), ("features/*.feature", ⟨2, []⟩), ("[", ⟨3, []⟩),
        ("/features/*.feature", ⟨4, []⟩), ("docs/*.md", ⟨5, ["docs/a.md"]⟩)]
    let path := "C:\\ws\\features\\new.feature"
    let later := (({ entries, hits := 7 } : Cache).invalidateMatching path).1
    ("**/*.feature", ⟨1, ["/ws/old.feature"]⟩) ∉ later.entries ∧
      ("features/*.feature", ⟨2, []⟩) ∉ later.entries ∧ ("[", ⟨3, []⟩) ∉ later.entries ∧
      ("/features/*.feature", ⟨4, []⟩) ∈ later.entries ∧
      ("docs/*.md", ⟨5, ["docs/a.md"]⟩) ∈ later.entries := by
  intro entries path later
  have hseen : Path.normalize path.toList = "C:/ws/features/new.feature".toList := by decide +kernel
  obtain ⟨hdrops, hkeeps, -⟩ := invalidateMatching_drops_listed { entries, hits := 7 } path
  rw [hseen] at hdrops hkeeps
  have hunclosed : Glob.read "[" = .error ⟨"[", .unclosedSet⟩ := rfl
  obtain ⟨rooted, hrooted⟩ : ∃ tokens, Glob.read "/features/*.feature" = .ok tokens := ⟨_, by rfl⟩
  obtain ⟨others, hothers⟩ : ∃ tokens, Glob.read "docs/*.md" = .ok tokens := ⟨_, by rfl⟩
  refine ⟨?_, ?_, ?_, ?_, ?_⟩
  · exact hdrops _ (by decide) (Or.inr (Or.inl (by decide +kernel)))
  · refine hdrops _ (by decide) (Or.inr (Or.inr ⟨by decide +kernel, "C:/ws".toList, ?_⟩))
    exact ⟨"features/new.feature".toList, by decide +kernel, by decide +kernel⟩
  · exact hdrops _ (by decide) (Or.inl (by simp [hunclosed]))
  · exact hkeeps _ (by decide) rooted hrooted (by decide +kernel) (Or.inl (by decide +kernel))
  · exact hkeeps _ (by decide) others hothers (by decide +kernel) (Or.inr (by decide +kernel))

end ScenarioAtlas.Cache
