import Mathlib.Data.List.DropRight
import ScenarioAtlas.Path
import ScenarioAtlas.Proofs.Text.Cut

/-!
# Paths in one spelling

A path seen from a root is the end of the path written with `/`, so it ends as the path itself does
and does not depend on how the separators were written.
-/

namespace ScenarioAtlas.Path

set_option autoImplicit false

variable {path root : List Char}

theorem normalize_normalize (path : List Char) : normalize (normalize path) = normalize path := by
  simp only [normalize, List.map_map, List.map_inj_left, Function.comp_apply]
  intro c _
  split <;> simp_all

theorem normalize_append (front back : List Char) :
    normalize (front ++ back) = normalize front ++ normalize back := List.map_append

theorem normalize_eq_self (h : '\\' ∉ path) : normalize path = path := by
  refine (List.map_congr_left fun c hc => ?_).trans (List.map_id path)
  exact if_neg fun hslash : c = '\\' => h (hslash ▸ hc)

theorem mem_normalize {c : Char} (hc : c ≠ '/') (h : c ∈ normalize path) : c ∈ path := by
  obtain ⟨d, hd, heq⟩ := List.mem_map.mp h
  split at heq
  case isTrue => exact absurd heq.symm hc
  case isFalse => exact heq ▸ hd

theorem eq_of_normalize_eq {text : List Char} (htext : '/' ∉ text)
    (h : normalize path = text) : path = text := by
  rw [← h, normalize_eq_self]
  intro hslash
  exact htext (h ▸ List.mem_map.mpr ⟨'\\', hslash, if_pos rfl⟩)

theorem suffix_of_suffix_normalize {ending : List Char} (hending : '/' ∉ ending)
    (h : ending <:+ normalize path) : ending <:+ path := by
  obtain ⟨before, hbefore⟩ := h
  obtain ⟨front, back, rfl, -, hback⟩ := List.append_eq_map_iff.mp hbefore
  exact eq_of_normalize_eq hending hback ▸ List.suffix_append front back

theorem suffix_normalize {ending : List Char} (hending : '\\' ∉ ending) (h : ending <:+ path) :
    ending <:+ normalize path := by
  obtain ⟨front, rfl⟩ := h
  exact ⟨normalize front, by rw [normalize_append, normalize_eq_self hending]⟩

theorem prefix_of_prefix_normalize {start : List Char} (hstart : '/' ∉ start)
    (h : start <+: normalize path) : start <+: path := by
  obtain ⟨after, hafter⟩ := h
  obtain ⟨front, back, rfl, hfront, -⟩ := List.append_eq_map_iff.mp hafter
  exact eq_of_normalize_eq hstart hfront ▸ List.prefix_append front back

theorem not_mem_normalize (path : List Char) : '\\' ∉ normalize path := by
  intro hmem
  obtain ⟨c, -, hc⟩ := List.mem_map.mp hmem
  split at hc
  case isTrue => exact absurd hc (by decide)
  case isFalse hne => exact hne hc

theorem relativeTo_normalize (path root : List Char) :
    relativeTo (normalize path) root = relativeTo path root := by
  simp [relativeTo, normalize_normalize]

theorem relativeTo_congr_root {other : List Char} (path : List Char)
    (h : dropTrailingSlashes (normalize other) = dropTrailingSlashes (normalize root)) :
    relativeTo path other = relativeTo path root := by
  simp only [relativeTo, h]

theorem relativeTo_suffix (path root : List Char) : relativeTo path root <:+ normalize path := by
  unfold relativeTo
  dsimp only
  split
  · exact List.suffix_rfl
  · split
    case h_1 => exact List.nil_suffix
    case h_2 rest hrest =>
      rw [Text.afterStart?_eq_some_iff] at hrest
      have hcut : rest.dropWhile (· == '/') <:+ '/' :: rest :=
        (List.dropWhile_suffix _).trans (List.suffix_cons '/' rest)
      rw [hrest]
      exact hcut.trans (List.suffix_append _ _)
    case h_3 => exact List.suffix_rfl

theorem normalize_relativeTo (path root : List Char) :
    normalize (relativeTo path root) = relativeTo path root := by
  obtain ⟨before, hbefore⟩ := relativeTo_suffix path root
  obtain ⟨front, back, -, -, hback⟩ := List.append_eq_map_iff.mp hbefore
  have hnormal : normalize back = relativeTo path root := hback
  rw [← hnormal, normalize_normalize]

theorem exists_append_slashes (path : List Char) :
    ∃ slashes, (∀ c ∈ slashes, c = '/') ∧ path = dropTrailingSlashes path ++ slashes := by
  refine ⟨path.rtakeWhile (· == '/'), fun c hc => ?_, List.rdropWhile_append_rtakeWhile.symm⟩
  have hslash := List.mem_rtakeWhile_imp hc
  exact eq_of_beq hslash

theorem dropWhile_slashes_append {slashes : List Char} (hslashes : ∀ c ∈ slashes, c = '/')
    (hpath : path.head? ≠ some '/') : (slashes ++ path).dropWhile (· == '/') = path := by
  rw [List.dropWhile_append_of_pos fun c hc => beq_iff_eq.mpr (hslashes c hc)]
  cases path with
  | nil => rfl
  | cons c rest =>
    have hc : c ≠ '/' := fun heq => hpath (congrArg some heq)
    exact List.dropWhile_cons_of_neg (by simpa using hc)

theorem relativeTo_append {separators : List Char}
    (hroot : dropTrailingSlashes (normalize root) ≠ []) (hsome : separators ≠ [])
    (hseparators : ∀ c ∈ separators, isSeparator c = true)
    (hpath : (normalize path).head? ≠ some '/') :
    relativeTo (root ++ separators ++ path) root = normalize path := by
  obtain ⟨slashes, hslashes, hnormal⟩ := exists_append_slashes (normalize root)
  have hall : ∀ c ∈ slashes ++ normalize separators, c = '/' := by
    intro c hc
    rcases List.mem_append.mp hc with hc | hc
    · exact hslashes c hc
    · obtain ⟨d, hd, rfl⟩ := List.mem_map.mp hc
      have hd := hseparators d hd
      simp only [isSeparator, Bool.or_eq_true, beq_iff_eq] at hd
      rcases hd with rfl | rfl <;> rfl
  obtain ⟨first, more, hmore⟩ := List.exists_cons_of_ne_nil
    (show slashes ++ normalize separators ≠ [] by simp [normalize, hsome])
  have hfirst : first = '/' := hall first (hmore ▸ List.mem_cons_self)
  have hrest : ∀ c ∈ more, c = '/' := fun c hc => hall c (hmore ▸ List.mem_cons_of_mem _ hc)
  have hwhole : normalize (root ++ separators ++ path) =
      dropTrailingSlashes (normalize root) ++ '/' :: (more ++ normalize path) := by
    calc normalize (root ++ separators ++ path)
        = normalize root ++ (normalize separators ++ normalize path) := by
          rw [normalize_append, normalize_append, List.append_assoc]
      _ = dropTrailingSlashes (normalize root) ++
            (slashes ++ normalize separators ++ normalize path) := by
          rw [List.append_assoc slashes, ← List.append_assoc _ slashes, ← hnormal]
      _ = _ := by rw [hmore, hfirst, List.cons_append]
  have hafter := Text.afterStart?_eq_some_iff.mpr hwhole
  simp only [relativeTo, hafter, List.isEmpty_iff, if_neg hroot]
  exact dropWhile_slashes_append hrest hpath

/-- Whether a path is the root or lies below it, up to the spelling of the separators. -/
def IsWithin (path root : List Char) : Prop :=
  normalize path = dropTrailingSlashes (normalize root) ∨
    dropTrailingSlashes (normalize root) ++ ['/'] <+: normalize path

instance (path root : List Char) : Decidable (IsWithin path root) :=
  inferInstanceAs (Decidable (_ ∨ _))

theorem relativeTo_of_not_isWithin (h : ¬ IsWithin path root) :
    relativeTo path root = normalize path := by
  unfold relativeTo
  dsimp only
  split
  case isTrue => rfl
  case isFalse =>
    split
    case h_1 hafter =>
      rw [Text.afterStart?_eq_some_iff, List.append_nil] at hafter
      exact absurd (Or.inl hafter) h
    case h_2 rest hafter =>
      rw [Text.afterStart?_eq_some_iff, List.append_cons] at hafter
      exact absurd (Or.inr ⟨rest, hafter.symm⟩) h
    case h_3 => rfl

theorem IsWithin.root_ne_nil (h : IsWithin path root) (hsome : path ≠ [])
    (hpath : (normalize path).head? ≠ some '/') :
    dropTrailingSlashes (normalize root) ≠ [] := by
  intro hnameless
  rw [IsWithin, hnameless] at h
  rcases h with hempty | ⟨rest, hrest⟩
  · exact hsome (List.map_eq_nil_iff.mp hempty)
  · rw [← hrest] at hpath
    exact hpath rfl

/-- A path at a named root or below it is seen as what stands behind the name and the separators. -/
theorem IsWithin.exists_relativeTo_eq (h : IsWithin path root)
    (hroot : dropTrailingSlashes (normalize root) ≠ []) :
    ∃ rest, normalize path = dropTrailingSlashes (normalize root) ++ rest ∧
      relativeTo path root = rest.dropWhile (· == '/') := by
  rcases h with h | ⟨rest, hrest⟩
  · have hpath : normalize path = dropTrailingSlashes (normalize root) ++ [] := by
      rw [h, List.append_nil]
    have hafter := Text.afterStart?_eq_some_iff.mpr hpath
    refine ⟨[], hpath, ?_⟩
    simp only [relativeTo, List.isEmpty_iff, if_neg hroot, hafter, List.dropWhile_nil]
  · rw [List.append_assoc, List.singleton_append] at hrest
    have hafter := Text.afterStart?_eq_some_iff.mpr hrest.symm
    refine ⟨'/' :: rest, hrest.symm, ?_⟩
    simp only [relativeTo, List.isEmpty_iff, if_neg hroot, hafter]
    exact (List.dropWhile_cons_of_pos rfl).symm

theorem length_relativeTo_lt (hroot : dropTrailingSlashes (normalize root) ≠ [])
    (h : IsWithin path root) : (relativeTo path root).length < (normalize path).length := by
  obtain ⟨rest, hpath, hseen⟩ := h.exists_relativeTo_eq hroot
  have hname := List.length_pos_iff.mpr hroot
  have hcut := (List.dropWhile_suffix (l := rest) (· == '/')).length_le
  rw [hpath, hseen, List.length_append]
  omega

theorem fileName_concat (path : List Char) (c : Char) :
    fileName (path ++ [c]) = if isSeparator c then [] else fileName path ++ [c] := by
  by_cases hc : isSeparator c <;> simp [fileName, hc]

theorem fileName_append_slash (folders path : List Char) :
    fileName (folders ++ '/' :: path) = fileName path := by
  induction path using List.reverseRecOn with
  | nil => exact (fileName_concat folders '/').trans (if_pos rfl)
  | append_singleton path c ih =>
    rw [← List.cons_append, ← List.append_assoc, fileName_concat, fileName_concat, ih]

theorem fileName_normalize (path : List Char) : fileName (normalize path) = fileName path := by
  induction path using List.reverseRecOn with
  | nil => rfl
  | append_singleton path c ih =>
    rw [normalize_append, normalize, normalize, List.map_singleton, ← normalize, fileName_concat,
      fileName_concat, ih]
    by_cases hslash : c = '\\'
    · subst hslash
      rfl
    · rw [if_neg hslash]

theorem suffix_fileName {ending : List Char} (hending : ∀ c ∈ ending, isSeparator c = false)
    (h : ending <:+ path) : ending <:+ fileName path := by
  obtain ⟨front, rfl⟩ := h
  induction ending using List.reverseRecOn with
  | nil => exact List.nil_suffix
  | append_singleton ending c ih =>
    have hc : isSeparator c = false := hending c (by simp)
    obtain ⟨before, hbefore⟩ := ih fun d hd => hending d (List.mem_append_left _ hd)
    rw [← List.append_assoc, fileName_concat, hc, if_neg Bool.false_ne_true]
    exact ⟨before, by rw [← hbefore, List.append_assoc]⟩

theorem fileName_dropSlashes (path : List Char) :
    fileName (path.dropWhile (· == '/')) = fileName path := by
  induction path with
  | nil => rfl
  | cons c path ih =>
    rw [List.dropWhile_cons]
    split
    case isTrue hslash =>
      rw [eq_of_beq hslash, ih]
      exact (fileName_append_slash [] path).symm
    case isFalse => rfl

theorem fileName_relativeTo (h : relativeTo path root ≠ []) :
    fileName (relativeTo path root) = fileName path := by
  revert h
  unfold relativeTo
  dsimp only
  split
  case isTrue => exact fun _ => fileName_normalize path
  case isFalse =>
    split
    case h_1 => exact fun h => absurd rfl h
    case h_2 rest hrest =>
      rw [Text.afterStart?_eq_some_iff] at hrest
      intro _
      rw [fileName_dropSlashes, ← fileName_normalize path, hrest, fileName_append_slash]
    case h_3 => exact fun _ => fileName_normalize path

theorem normalize_append_slash (folders path : List Char) :
    normalize (folders ++ '/' :: path) = normalize folders ++ '/' :: normalize path := by
  simp [normalize]

theorem join_eq_or (base rest : List Char) :
    join base rest = rest ∨ ∃ folders, join base rest = folders ++ '/' :: rest := by
  unfold join
  split
  · exact Or.inl rfl
  · split
    case isTrue hslash =>
      obtain ⟨folders, hfolders⟩ := List.getLast?_eq_some_iff.mp (by simpa using hslash)
      exact Or.inr ⟨folders, by rw [hfolders]; simp⟩
    case isFalse => exact Or.inr ⟨base, rfl⟩

/-- A path with a `/` behind it that paths below it go on after; the empty path needs none. -/
def asFolder (base : List Char) : List Char :=
  if base.isEmpty || base.getLast? == some '/' then base else base ++ ['/']

theorem join_eq_append {rest : List Char} (base : List Char) (h : isRooted rest = false) :
    join base rest = asFolder base ++ rest := by
  unfold join asFolder
  rw [h, Bool.false_or]
  cases hempty : base.isEmpty with
  | true => simp [List.isEmpty_iff.mp hempty]
  | false => by_cases hslash : base.getLast? == some '/' <;> simp [hslash]

/-- Whether a path starts at the root of no disk, in either spelling. -/
def isBelow (path : List Char) : Bool := !path.head?.any isSeparator

theorem head?_normalize_eq_iff (path : List Char) :
    (normalize path).head? = some '/' ↔ path.head?.any isSeparator = true := by
  cases path with
  | nil => simp [normalize]
  | cons c rest => by_cases hc : c = '\\' <;> simp [normalize, isSeparator, hc]

theorem head?_normalize_ne {path : List Char} (h : isBelow path = true) :
    (normalize path).head? ≠ some '/' := by
  intro hslash
  rw [isBelow, (head?_normalize_eq_iff path).mp hslash] at h
  cases h

theorem isRooted_of_isBelow {path : List Char} (h : isBelow path = true) :
    isRooted path = false := by
  cases path with
  | nil => rfl
  | cons c rest =>
    have hc : c ≠ '/' := by
      rintro rfl
      cases h
    simpa [isRooted] using hc

theorem exists_asFolder_eq {base : List Char} (h : base ≠ []) :
    ∃ folders, asFolder base = folders ++ ['/'] ∧
      dropTrailingSlashes (normalize folders) = dropTrailingSlashes (normalize base) := by
  unfold asFolder
  split
  case isTrue hslash =>
    have hlast : base.getLast? = some '/' := by simpa [h] using hslash
    obtain ⟨folders, rfl⟩ := List.getLast?_eq_some_iff.mp hlast
    exact ⟨folders, rfl, by simp [normalize, dropTrailingSlashes]⟩
  case isFalse => exact ⟨base, rfl, rfl⟩

theorem isAbsolute_slash (path : List Char) : isAbsolute ('/' :: path) = true := by
  rw [isAbsolute.eq_def]
  split
  case h_1 heq => cases heq; rfl
  case h_2 heq => cases heq; rfl
  case h_3 heq => cases heq

theorem isAbsolute_append_slash (folders path : List Char) :
    isAbsolute (folders ++ '/' :: path) = isAbsolute (folders ++ ['/']) := by
  match folders with
  | [] => rw [List.nil_append, List.nil_append, isAbsolute_slash, isAbsolute_slash]
  | [c] => rfl
  | [c, d] => by_cases hd : d = ':' <;> simp [isAbsolute, hd]
  | c :: d :: e :: more => by_cases hd : d = ':' <;> simp [isAbsolute, hd]

theorem relativeTo_asFolder_append {path root : List Char}
    (hroot : dropTrailingSlashes (normalize root) ≠ []) (hpath : isBelow path = true) :
    relativeTo (asFolder root ++ path) root = normalize path := by
  have hsome : root ≠ [] := by
    rintro rfl
    exact hroot rfl
  obtain ⟨folders, hfolder, hcalled⟩ := exists_asFolder_eq hsome
  rw [hfolder, ← relativeTo_congr_root _ hcalled]
  exact relativeTo_append (hcalled ▸ hroot) (List.cons_ne_nil _ _) (by simp [isSeparator])
    (head?_normalize_ne hpath)

end ScenarioAtlas.Path
