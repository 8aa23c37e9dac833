import ScenarioAtlas.Proofs.Path

/-!
# Paths seen from a root

A root has a name if there is more to it than separators. A path at a named root or below it is seen
without the root, every other path is seen whole. What is left of a path below a root starts with no
separator, so a root that does is cut off once at most; any other root may be met again.
-/

namespace ScenarioAtlas.Path

set_option autoImplicit false

variable {path root : List Char}

theorem head?_dropTrailingSlashes (h : dropTrailingSlashes path ≠ []) :
    (dropTrailingSlashes path).head? = path.head? := by
  obtain ⟨slashes, -, hpath⟩ := exists_append_slashes path
  have hhead : (dropTrailingSlashes path ++ slashes).head? = (dropTrailingSlashes path).head? :=
    List.head?_append_of_ne_nil _ h
  rw [← hpath] at hhead
  exact hhead.symm

theorem IsWithin.head?_normalize (h : IsWithin path root)
    (hroot : dropTrailingSlashes (normalize root) ≠ []) :
    (normalize path).head? = (normalize root).head? := by
  obtain ⟨rest, hpath, -⟩ := h.exists_relativeTo_eq hroot
  rw [hpath, List.head?_append_of_ne_nil _ hroot, head?_dropTrailingSlashes hroot]

theorem IsWithin.head?_relativeTo_ne (h : IsWithin path root)
    (hroot : dropTrailingSlashes (normalize root) ≠ []) :
    (relativeTo path root).head? ≠ some '/' := by
  obtain ⟨rest, -, hseen⟩ := h.exists_relativeTo_eq hroot
  intro hslash
  have hstop := List.head?_dropWhile_not (· == '/') rest
  rw [← hseen, hslash] at hstop
  cases hstop

theorem isWithin_normalize_iff : IsWithin (normalize path) root ↔ IsWithin path root := by
  rw [IsWithin, IsWithin, normalize_normalize]

/-- A path is seen whole exactly if the root has no name or the path does not lie at or below it. -/
theorem relativeTo_eq_normalize_iff (path root : List Char) :
    relativeTo path root = normalize path ↔
      dropTrailingSlashes (normalize root) = [] ∨ ¬ IsWithin path root := by
  constructor
  · intro hwhole
    by_contra hnot
    obtain ⟨hroot, hwithin⟩ := not_or.mp hnot
    have hshorter := length_relativeTo_lt hroot (not_not.mp hwithin)
    rw [hwhole] at hshorter
    omega
  · rintro (hnameless | hwithin)
    · simp [relativeTo, hnameless]
    · exact relativeTo_of_not_isWithin hwithin

/-- A root that starts with a separator is cut off once at most. -/
theorem relativeTo_relativeTo (path : List Char) (hroot : root.head?.any isSeparator = true) :
    relativeTo (relativeTo path root) root = relativeTo path root := by
  have hseen := relativeTo_eq_normalize_iff (relativeTo path root) root
  rw [normalize_relativeTo] at hseen
  apply hseen.mpr
  by_cases hnamed : dropTrailingSlashes (normalize root) = []
  case pos => exact Or.inl hnamed
  case neg =>
    right
    intro hagain
    by_cases hwithin : IsWithin path root
    case pos =>
      have hstart := hagain.head?_normalize hnamed
      rw [normalize_relativeTo, (head?_normalize_eq_iff root).mpr hroot] at hstart
      exact hwithin.head?_relativeTo_ne hnamed hstart
    case neg =>
      rw [relativeTo_of_not_isWithin hwithin] at hagain
      exact hwithin (isWithin_normalize_iff.mp hagain)

/-- A root that starts with a name may be cut off twice. -/
example :
    let root := "ws".toList
    relativeTo "ws/ws/a".toList root = "ws/a".toList ∧
      relativeTo "ws/a".toList root = "a".toList := by decide

/-- Behind a named root, in any spelling and with any separators in between, a path is seen as
itself. A path is seen whole exactly if the root has no name or the path is neither the root nor
below it. From a root that starts with a separator, what was seen once is seen so again. -/
theorem relativeTo_undoes_joining (root : List Char) :
    (dropTrailingSlashes (normalize root) ≠ [] →
      ∀ spelled separators path : List Char,
        dropTrailingSlashes (normalize spelled) = dropTrailingSlashes (normalize root) →
        separators ≠ [] → (∀ c ∈ separators, isSeparator c = true) →
        (normalize path).head? ≠ some '/' →
        relativeTo (spelled ++ separators ++ path) root = normalize path) ∧
      (∀ path, relativeTo path root = normalize path ↔
        dropTrailingSlashes (normalize root) = [] ∨ ¬ IsWithin path root) ∧
      (root.head?.any isSeparator = true →
        ∀ path, relativeTo (relativeTo path root) root = relativeTo path root) := by
  refine ⟨?_, fun path => relativeTo_eq_normalize_iff path root,
    fun hroot path => relativeTo_relativeTo path hroot⟩
  intro hroot spelled separators path hspelled hsome hseparators hpath
  calc relativeTo (spelled ++ separators ++ path) root
      = relativeTo (spelled ++ separators ++ path) spelled :=
        (relativeTo_congr_root _ hspelled).symm
    _ = normalize path := relativeTo_append (hspelled ▸ hroot) hsome hseparators hpath

theorem relativeTo_undoes_joining_of_mixed_spelling :
    let root := "\\abs\\ws\\/".toList
    relativeTo "/abs/ws//\\features\\x.feature".toList root = "features/x.feature".toList ∧
      relativeTo "\\abs/ws2\\x.feature".toList root = "/abs/ws2/x.feature".toList ∧
      relativeTo (relativeTo "/abs/ws/abs/ws/x.feature".toList root) root =
        relativeTo "/abs/ws/abs/ws/x.feature".toList root := by
  intro root
  obtain ⟨hjoined, hwhole, hagain⟩ := relativeTo_undoes_joining root
  have houtside : ¬ IsWithin "\\abs/ws2\\x.feature".toList root := by decide +kernel
  refine ⟨?_, (hwhole _).mpr (Or.inr houtside), hagain (by decide) _⟩
  exact hjoined (by decide) "/abs/ws".toList ['/', '/', '\\'] "features\\x.feature".toList
    (by decide) (by decide) (by simp [isSeparator]) (by decide)

end ScenarioAtlas.Path
