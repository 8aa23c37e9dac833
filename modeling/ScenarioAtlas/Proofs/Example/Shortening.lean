import ScenarioAtlas.Proofs.Example.Name

/-!
# Names of examples cut to the limit

Of the parameter names as few are cut as the limit asks for, the last ones first and the first one
never; all else stands in the name as it is. A cut name is as long as the kept width and the ellipsis
together, whatever it was before. So cutting can make a name longer, and when it does is told by
lengths alone.
-/

namespace ScenarioAtlas.Naming

set_option autoImplicit false

variable (naming : Naming)

section Places

/-- Parameter names as they are shown: those from place `k` on, if they are longer than the kept
width, are cut to it and end in the ellipsis. -/
def shownFrom (k : Nat) (headers : List String) : List String :=
  headers.mapIdx fun i header =>
    if i < k ∨ header.length ≤ naming.keptWidth then header
    else String.ofList (header.toList.take naming.keptWidth) ++ naming.ellipsis

theorem shownFrom_cons (k : Nat) (header : String) (headers : List String) :
    naming.shownFrom k (header :: headers) =
      (if 0 < k then header else naming.shorten header) :: naming.shownFrom (k - 1) headers := by
  have hplace (i : Nat) : i + 1 < k ↔ i < k - 1 := by omega
  rw [shownFrom, List.mapIdx_cons, shownFrom]
  congr 1
  · cases k <;> simp [shorten]
  · simp only [hplace]

theorem shortenFrom_eq_shownFrom (k : Nat) (headers : List String) :
    naming.shortenFrom k headers = naming.shownFrom k headers := by
  induction headers generalizing k with
  | nil => rw [shortenFrom, List.take_nil, List.drop_nil]; rfl
  | cons header headers ih =>
    rw [shownFrom_cons, ← ih]
    cases k with
    | zero => simp [shortenFrom]
    | succ k => simp [shortenFrom]

end Places

section Lengths

theorem length_shorten (parameter : String) :
    (naming.shorten parameter).length =
      if parameter.length ≤ naming.keptWidth then parameter.length
      else naming.keptWidth + naming.ellipsis.length := by
  rw [shorten]
  split
  case isTrue => rfl
  case isFalse hlong =>
    rw [String.length_append, String.length_ofList, List.length_take, String.length_toList,
      Nat.min_eq_left (Nat.le_of_not_le hlong)]

theorem length_intercalate (sep : String) (parts : List String) :
    (sep.intercalate parts).length =
      (String.join parts).length + (parts.length - 1) * sep.length := by
  induction parts with
  | nil => simp
  | cons part parts ih =>
    cases parts with
    | nil => simp
    | cons next parts =>
      rw [String.intercalate_cons_cons, String.join_cons, String.length_append,
        String.length_append, String.length_append, ih]
      simp only [List.length_cons, Nat.add_sub_cancel, Nat.add_mul]
      omega

/-- The names that have a value, one behind the other. -/
def joinShown (names values : List String) : String := String.join (names.take values.length)

theorem length_parameterList_add {names others : List String} (h : names.length = others.length)
    (values : List String) :
    (parameterList names values).length + (joinShown others values).length =
      (parameterList others values).length + (joinShown names values).length := by
  have hparts :
      (String.join (List.zipWith (fun name value => name ++ ": " ++ value) names values)).length +
          (joinShown others values).length =
        (String.join (List.zipWith (fun name value => name ++ ": " ++ value) others values)).length +
          (joinShown names values).length := by
    induction names generalizing others values with
    | nil => rw [List.length_eq_zero_iff.mp h.symm]
    | cons name names ih =>
      cases others with
      | nil => cases h
      | cons other others =>
        cases values with
        | nil => rfl
        | cons value values =>
          have hrest := ih (Nat.succ.inj h) values
          simp only [joinShown, List.zipWith_cons_cons, List.length_cons, List.take_succ_cons,
            String.join_cons, String.length_append] at hrest ⊢
          omega
  rw [parameterList, parameterList, length_intercalate, length_intercalate, List.length_zipWith,
    List.length_zipWith, h]
  omega

theorem length_shortenFrom (k : Nat) (headers : List String) :
    (naming.shortenFrom k headers).length = headers.length := by
  rw [shortenFrom_eq_shownFrom, shownFrom, List.length_mapIdx]

theorem take_shortenFrom (n k : Nat) (headers : List String) :
    (naming.shortenFrom k headers).take n = naming.shortenFrom k (headers.take n) := by
  rw [shortenFrom_eq_shownFrom, shortenFrom_eq_shownFrom, shownFrom, shownFrom]
  apply List.ext_getElem
  · simp
  · intro i _ _
    simp

theorem length_join_shorten (names : List String) :
    (String.join (names.map naming.shorten)).length +
        (String.join (names.filter (naming.keptWidth < ·.length))).length =
      (String.join names).length + (names.filter (naming.keptWidth < ·.length)).length *
        (naming.keptWidth + naming.ellipsis.length) := by
  induction names with
  | nil => simp
  | cons name names ih =>
    rw [List.map_cons, String.join_cons, String.join_cons, String.length_append,
      String.length_append, length_shorten]
    by_cases hlong : naming.keptWidth < name.length
    · rw [List.filter_cons_of_pos (by simpa using hlong), if_neg (Nat.not_le.mpr hlong),
        String.join_cons, String.length_append, List.length_cons, Nat.succ_mul]
      omega
    · rw [List.filter_cons_of_neg (by simpa using hlong), if_pos (Nat.le_of_not_lt hlong)]
      omega

/-- The parameter names from place `k` on that are longer than the kept width and have a value. -/
def longFrom (k : Nat) (headers values : List String) : List String :=
  ((headers.take values.length).drop k).filter (naming.keptWidth < ·.length)

theorem length_nameFrom (index : Nat) (outline : String) (headers values : List String) (k : Nat) :
    (naming.nameFrom index outline headers values k).length +
        (String.join (naming.longFrom k headers values)).length =
      (compose index outline headers values).length +
        (naming.longFrom k headers values).length *
          (naming.keptWidth + naming.ellipsis.length) := by
  obtain ⟨shown, hshown⟩ : ∃ shown, shown = headers.take values.length := ⟨_, rfl⟩
  have hlist := length_parameterList_add (naming.length_shortenFrom k headers) values
  have hheaders : (joinShown headers values).length =
      (String.join (shown.take k)).length + (String.join (shown.drop k)).length := by
    rw [← String.length_append, ← String.join_append, List.take_append_drop, joinShown, hshown]
  have hcut : (joinShown (naming.shortenFrom k headers) values).length =
      (String.join (shown.take k)).length +
        (String.join ((shown.drop k).map naming.shorten)).length := by
    rw [joinShown, take_shortenFrom, ← hshown, shortenFrom, String.join_append,
      String.length_append]
  have hlong := naming.length_join_shorten (shown.drop k)
  simp only [nameFrom, compose, String.length_append, longFrom, ← hshown]
  omega

end Lengths

section Fitting

theorem nameFrom_length (index : Nat) (outline : String) (headers values : List String) :
    naming.nameFrom index outline headers values headers.length =
      compose index outline headers values := by
  simp [nameFrom, shortenFrom]

variable {naming} {index : Nat} {outline : String} {headers values : List String} {k : Nat}

/-- A name that fits is not longer than the full one, which fits as well or was found too long. -/
theorem EndsAt.length_le_of_fits
    (h : naming.EndsAt index outline headers values headers.length k)
    (hfits : (naming.nameFrom index outline headers values k).length ≤ naming.maxLength) :
    (naming.nameFrom index outline headers values k).length ≤
      (compose index outline headers values).length := by
  rw [← naming.nameFrom_length]
  rcases Nat.lt_or_eq_of_le h.le_top with hlt | heq
  · exact Nat.le_of_lt (Nat.lt_of_le_of_lt hfits (h.tooLong _ hlt (Nat.le_refl _)))
  · rw [← heq]

theorem EndsAt.fits_of_fits (h : naming.EndsAt index outline headers values headers.length k)
    {j : Nat} (hpos : 1 ≤ j) (hle : j ≤ headers.length)
    (hfits : (naming.nameFrom index outline headers values j).length ≤ naming.maxLength) :
    (naming.nameFrom index outline headers values k).length ≤ naming.maxLength := by
  rcases h.fits_or_first with hk | hk
  · exact hk
  rcases Nat.lt_or_ge k j with hlt | hge
  · exact absurd (h.tooLong j hlt hle) (Nat.not_lt.mpr hfits)
  · obtain rfl : j = k := by omega
    exact hfits

theorem EndsAt.eq_one (h : naming.EndsAt index outline headers values headers.length k)
    (hheaders : headers ≠ [])
    (hlong : ¬ (naming.nameFrom index outline headers values k).length ≤ naming.maxLength) :
    k = 1 := by
  have hpos := h.pos (List.length_pos_iff.mpr hheaders)
  have hfirst := h.fits_or_first.resolve_left hlong
  omega

end Fitting

variable (index : Nat) (outline : String)

/-- The name of an example is its number, its outline's name and its values as they are, with the
parameter names from some place on cut, the first one never. The place is the last one with which the
name fits, or the first that can be if it fits with none. -/
theorem exampleName_cuts_fewest {headers values : List String} (hheaders : headers ≠ [])
    (hvalues : values.length = headers.length) :
    let name (k : Nat) :=
      String.ofList (Text.writeNumber index) ++ ": " ++ outline ++ " - " ++
        ", ".intercalate (List.zipWith (fun shown value => shown ++ ": " ++ value)
          (naming.shownFrom k headers) values)
    ∃ k, 1 ≤ k ∧ k ≤ headers.length ∧
      naming.exampleName index outline headers values = name k ∧
      ((name k).length ≤ naming.maxLength ∧
          (∀ j, k < j → j ≤ headers.length → naming.maxLength < (name j).length) ∨
        k = 1 ∧ ∀ j, 1 ≤ j → j ≤ headers.length → naming.maxLength < (name j).length) ∧
      (naming.shownFrom k headers).length = values.length ∧
      (naming.shownFrom k headers).head? = headers.head? := by
  intro name
  have hname (k : Nat) : naming.nameFrom index outline headers values k = name k := by
    rw [nameFrom, shortenFrom_eq_shownFrom]
    rfl
  obtain ⟨k, hends, hfound⟩ :=
    naming.exists_fitBelow_eq_nameFrom index outline headers values headers.length
  have hpos : 1 ≤ k := hends.pos (List.length_pos_iff.mpr hheaders)
  refine ⟨k, hpos, hends.le_top, by rw [exampleName, hfound, hname], ?_, ?_, ?_⟩
  · rw [← hname]
    by_cases hfits : (naming.nameFrom index outline headers values k).length ≤ naming.maxLength
    · refine .inl ⟨hfits, fun j hlt hle => ?_⟩
      rw [← hname]
      exact hends.tooLong j hlt hle
    · refine .inr ⟨hends.eq_one hheaders hfits, fun j hj hle => ?_⟩
      rw [← hname]
      exact Nat.lt_of_not_le fun hj' => hfits (hends.fits_of_fits hj hle hj')
  · rw [← shortenFrom_eq_shownFrom, length_shortenFrom, hvalues]
  · obtain ⟨first, others, rfl⟩ := List.exists_cons_of_ne_nil hheaders
    rw [shownFrom_cons, if_pos (Nat.lt_of_succ_le hpos)]
    rfl

theorem exampleName_cuts_fewest_of_last :
    let naming : Naming := { maxLength := 51, keptWidth := 1 }
    let headers := ["first", "second", "third"]
    let name (k : Nat) := compose 7 "Outline name here" (naming.shownFrom k headers) ["1", "2", "3"]
    headers ≠ [] ∧ ["1", "2", "3"].length = headers.length ∧
      naming.exampleName 7 "Outline name here" headers ["1", "2", "3"] =
        "7: Outline name here - first: 1, second: 2, t...: 3" ∧
      ∃ k, naming.exampleName 7 "Outline name here" headers ["1", "2", "3"] = name k ∧
        (name k).length ≤ 51 ∧ ∀ j, k < j → j ≤ 3 → 51 < (name j).length := by
  intro naming headers name
  obtain ⟨k, -, -, hname, hplace, -⟩ :=
    naming.exampleName_cuts_fewest 7 "Outline name here" (show headers ≠ [] by decide)
      (show ["1", "2", "3"].length = headers.length from rfl)
  have hfits : (name 2).length ≤ 51 := by decide +kernel
  refine ⟨by decide, rfl, by decide +kernel, k, hname, ?_⟩
  rcases hplace with hlast | ⟨-, hnone⟩
  · exact hlast
  · exact absurd (hnone 2 (by decide) (by decide)) (Nat.not_lt.mpr hfits)

variable (headers values : List String)

/-- The name of an example is at most as long as the one with full parameter names exactly if it can
be made to fit or, where it cannot and all parameter names but the first are cut, those that are cut
are together at least as long as what they are cut to. -/
theorem length_exampleName_le_iff :
    (naming.exampleName index outline headers values).length ≤
        (compose index outline headers values).length ↔
      (∃ k, 1 ≤ k ∧ k ≤ headers.length ∧
        (naming.nameFrom index outline headers values k).length ≤ naming.maxLength) ∨
      (naming.longFrom 1 headers values).length * (naming.keptWidth + naming.ellipsis.length) ≤
        (String.join (naming.longFrom 1 headers values)).length := by
  obtain ⟨k, hends, hfound⟩ :=
    naming.exists_fitBelow_eq_nameFrom index outline headers values headers.length
  rw [exampleName, hfound]
  by_cases hheaders : headers = []
  · subst hheaders
    obtain rfl : k = 0 := Nat.le_zero.mp hends.le_top
    simp [nameFrom, shortenFrom, longFrom]
  by_cases hfits : (naming.nameFrom index outline headers values k).length ≤ naming.maxLength
  · have hpos : 1 ≤ k := hends.pos (List.length_pos_iff.mpr hheaders)
    exact ⟨fun _ => .inl ⟨k, hpos, hends.le_top, hfits⟩, fun _ => hends.length_le_of_fits hfits⟩
  · obtain rfl := hends.eq_one hheaders hfits
    have hcut := naming.length_nameFrom index outline headers values 1
    constructor
    · intro hle
      exact .inr (by omega)
    · rintro (⟨j, hj, hle, hj'⟩ | hsum)
      · exact absurd (hends.fits_of_fits hj hle hj') hfits
      · omega

/-- Cutting `result` to five characters and an ellipsis of three makes it longer. -/
theorem exampleName_longer :
    let naming : Naming := { maxLength := 10 }
    naming.exampleName 1 "Add" ["a", "result"] ["1", "1"] = "1: Add - a: 1, resul...: 1" ∧
      compose 1 "Add" ["a", "result"] ["1", "1"] = "1: Add - a: 1, result: 1" ∧
      ¬ ∀ (index : Nat) (outline : String) (headers values : List String),
        (naming.exampleName index outline headers values).length ≤
          (compose index outline headers values).length := by
  intro naming
  refine ⟨by decide +kernel, by decide +kernel, fun h => ?_⟩
  exact absurd (h 1 "Add" ["a", "result"] ["1", "1"]) (by decide +kernel)

end ScenarioAtlas.Naming
