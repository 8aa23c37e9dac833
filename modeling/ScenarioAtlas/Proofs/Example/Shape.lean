import ScenarioAtlas.Example.Shape
import ScenarioAtlas.Proofs.Example.Name
import ScenarioAtlas.Proofs.Text.Cut

/-!
# The outline's name read back

The name of an example has the shape that example names are told by, and the outline's name is read
back from it up to blanks at its ends. Both hold whatever the outline is called, dashes, digits and
colons included. For the second one the parameters must not show a dash between two spaces, since it
would be taken for the one in front of them; the space before the first parameter counts.
-/

namespace ScenarioAtlas.ExampleName

set_option autoImplicit false

theorem afterIndex?_writeNumber (n : Nat) (rest : List Char) :
    afterIndex? (Text.writeNumber n ++ ':' :: rest) = some rest := by
  have hdigits : ∀ c ∈ Text.writeNumber n, Text.isDecimalDigit c = true := fun c hc =>
    Text.isDecimalDigit_of_isDigit (Text.isDigit_of_mem_writeNumber hc)
  have hcolon : Text.isDecimalDigit ':' = false := by decide
  obtain ⟨first, digits, hnumber⟩ := List.exists_cons_of_ne_nil (Text.writeNumber_ne_nil n)
  rw [afterIndex?, List.takeWhile_append_of_pos hdigits, List.dropWhile_append_of_pos hdigits,
    List.dropWhile_cons_of_neg (by simp [hcolon]), hnumber]
  rfl

theorem dropIndex_writeNumber (n : Nat) (rest : List Char) :
    dropIndex (Text.writeNumber n ++ ':' :: ' ' :: rest) = rest := by
  rw [dropIndex, afterIndex?_writeNumber]
  rfl

theorem titleBeforeDash_append {before title : List Char}
    (h : isTitle (before.reverse ++ title) = true) (rest : List Char) :
    titleBeforeDash before (title ++ '-' :: rest) = true := by
  induction title generalizing before with
  | nil =>
    rw [List.append_nil] at h
    simp [titleBeforeDash, h]
  | cons c title ih =>
    have hbelow : titleBeforeDash (c :: before) (title ++ '-' :: rest) = true :=
      ih (by simpa using h)
    simp [titleBeforeDash, hbelow]

theorem isTitle_between_spaces {outline : List Char} (h : '\n' ∉ outline) :
    isTitle (' ' :: outline ++ [' ']) = true := by
  have hspace : ∀ c ∈ [' '], Text.isBlank c = true := List.forall_mem_singleton.mpr rfl
  have htrim : Text.trim ([' '] ++ outline ++ [' ']) = Text.trim outline :=
    Text.trim_append hspace hspace outline
  have hline : '\n' ∉ Text.trim outline := fun hmem => h (Text.mem_of_mem_trim hmem)
  rw [isTitle, show ' ' :: outline ++ [' '] = [' '] ++ outline ++ [' '] from rfl, htrim]
  simp [hline]

section Composed

variable (index : Nat) (outline : String) (names values : List String)

theorem hasShape_compose (h : '\n' ∉ outline.toList) :
    hasShape (Naming.compose index outline names values) = true := by
  rw [hasShape, Naming.toList_compose, afterIndex?_writeNumber]
  have htitle : titleBeforeDash []
      (' ' :: outline.toList ++ [' '] ++ '-' :: ' ' :: (Naming.parameterList names values).toList) =
        true :=
    titleBeforeDash_append (isTitle_between_spaces h) _
  simpa using htitle

theorem beforeLast?_titled
    (h : ¬ [' ', '-', ' '] <:+: ' ' :: (Naming.parameterList names values).toList) :
    Text.beforeLast? [' ', '-', ' ']
        (outline ++ " - " ++ Naming.parameterList names values).toList =
      some outline.toList := by
  have hlast : ¬ [' ', '-', ' '] <:+:
      ['-', ' '] ++ (Naming.parameterList names values).toList := by
    rw [List.cons_append, List.infix_cons_iff, List.singleton_append, not_or]
    exact ⟨by simp, h⟩
  have hfound := Text.beforeLast?_append_of_not_infix hlast outline.toList
  simpa using hfound

theorem outlineName_compose
    (h : ¬ [' ', '-', ' '] <:+: ' ' :: (Naming.parameterList names values).toList) :
    outlineName (Naming.compose index outline names values) =
      if (Text.trim outline.toList).isEmpty then Naming.compose index outline names values
      else String.ofList (Text.trim outline.toList) := by
  rw [outlineName, Naming.toList_compose, dropIndex_writeNumber,
    beforeLast?_titled outline names values h]
  rfl

end Composed

/-- The name of an example has the shape of one if its outline's name is on one line. Whatever is cut
of the parameter names, if a space and the parameters hold no dash between two spaces, then reading
the name gives the outline's name without blanks at its ends, or the name as it is where that would
be empty. -/
theorem outlineName_exampleName (naming : Naming) (index : Nat) {outline : String}
    (hline : '\n' ∉ outline.toList) (headers values : List String) :
    let name := naming.exampleName index outline headers values
    hasShape name = true ∧
      ∃ k ≤ headers.length,
        let parameters := Naming.parameterList (naming.shortenFrom k headers) values
        name = String.ofList (Text.writeNumber index) ++ ": " ++ outline ++ " - " ++ parameters ∧
          (¬ [' ', '-', ' '] <:+: ' ' :: parameters.toList →
            outlineName name =
              if (Text.trim outline.toList).isEmpty then name
              else String.ofList (Text.trim outline.toList)) := by
  intro name
  obtain ⟨k, hends, hname⟩ :=
    naming.exists_fitBelow_eq_nameFrom index outline headers values headers.length
  have hname : name = Naming.compose index outline (naming.shortenFrom k headers) values := hname
  rw [hname]
  exact ⟨hasShape_compose index outline _ values hline, k, hends.le_top, rfl,
    outlineName_compose index outline _ values⟩

theorem outlineName_exampleName_of_outline_like_example :
    let naming : Naming := { maxLength := 10, keptWidth := 1 }
    let name := naming.exampleName 12 " 3: Add - fast" ["first", "second"] ["1-", "-2"]
    name = "12:  3: Add - fast - first: 1-, s...: -2" ∧
      '\n' ∉ " 3: Add - fast".toList ∧ hasShape name = true ∧ outlineName name = "3: Add - fast" := by
  intro naming name
  have hline : '\n' ∉ " 3: Add - fast".toList := by decide +kernel
  have hplain : ∀ k ≤ 2, ¬ [' ', '-', ' '] <:+:
      ' ' :: (Naming.parameterList (naming.shortenFrom k ["first", "second"]) ["1-", "-2"]).toList := by
    decide +kernel
  obtain ⟨hshape, k, hk, -, hread⟩ :=
    outlineName_exampleName naming 12 hline ["first", "second"] ["1-", "-2"]
  refine ⟨by decide +kernel, hline, hshape, ?_⟩
  rw [hread (hplain k hk)]
  decide +kernel

end ScenarioAtlas.ExampleName
