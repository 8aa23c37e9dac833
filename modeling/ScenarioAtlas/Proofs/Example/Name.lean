import ScenarioAtlas.Example.Name
import ScenarioAtlas.Proofs.Text.Number

/-!
# Names of examples tell the rows apart

A name is composed with the parameter names cut from some place on. However many they are, the name
of an example starts with its number and a colon, so two examples of one outline never share a name.
-/

namespace ScenarioAtlas.Naming

set_option autoImplicit false

variable (naming : Naming) (index : Nat) (outline : String) (headers values : List String)

theorem toList_compose (names : List String) :
    (compose index outline names values).toList =
      Text.writeNumber index ++
        ':' :: ' ' :: (outline ++ " - " ++ parameterList names values).toList := by
  simp [compose]

/-- Cutting from place `k` on is what a search from place `top` down ends at: the name fits there, or
it fits nowhere and the search has come down to the first place, and it is too long at every place in
between. -/
structure EndsAt (top k : Nat) : Prop where
  le_top : k ≤ top
  pos : 0 < top → 0 < k
  fits_or_first :
    (naming.nameFrom index outline headers values k).length ≤ naming.maxLength ∨ k ≤ 1
  tooLong : ∀ j, k < j → j ≤ top →
    naming.maxLength < (naming.nameFrom index outline headers values j).length

theorem exists_fitBelow_eq_nameFrom (top : Nat) :
    ∃ k, naming.EndsAt index outline headers values top k ∧
      naming.fitBelow index outline headers values top =
        naming.nameFrom index outline headers values k := by
  induction top with
  | zero =>
    refine ⟨0, ⟨Nat.le_refl 0, id, .inr (Nat.zero_le 1), ?_⟩, rfl⟩
    intro j hj hle
    omega
  | succ top ih =>
    cases top with
    | zero =>
      refine ⟨1, ⟨Nat.le_refl 1, id, .inr (Nat.le_refl 1), ?_⟩, rfl⟩
      intro j hj hle
      omega
    | succ top =>
      simp only [fitBelow]
      split
      case isTrue hfits =>
        refine ⟨top + 2, ⟨Nat.le_refl _, id, .inl hfits, ?_⟩, rfl⟩
        intro j hj hle
        omega
      case isFalse hlong =>
        obtain ⟨k, hends, heq⟩ := ih
        refine ⟨k, ⟨Nat.le_succ_of_le hends.le_top, fun _ => hends.pos (Nat.succ_pos top),
          hends.fits_or_first, ?_⟩, heq⟩
        intro j hj hle
        rcases Nat.lt_or_eq_of_le hle with hlt | rfl
        · exact hends.tooLong j hj (Nat.le_of_lt_succ hlt)
        · exact Nat.lt_of_not_le hlong

theorem index_eq_of_exampleName_eq {i j : Nat} {outline outline' : String}
    {headers headers' values values' : List String}
    (h : naming.exampleName i outline headers values =
      naming.exampleName j outline' headers' values') : i = j := by
  obtain ⟨k, -, hname⟩ :=
    exists_fitBelow_eq_nameFrom naming i outline headers values headers.length
  obtain ⟨k', -, hname'⟩ :=
    exists_fitBelow_eq_nameFrom naming j outline' headers' values' headers'.length
  have htexts := congrArg String.toList h
  rw [exampleName, exampleName, hname, hname', nameFrom, nameFrom, toList_compose,
    toList_compose] at htexts
  have htake := congrArg (List.takeWhile Char.isDigit) htexts
  have hnumber (n : Nat) (rest : List Char) :
      (Text.writeNumber n ++ ':' :: rest).takeWhile Char.isDigit = Text.writeNumber n := by
    rw [List.takeWhile_append_of_pos fun c hc => Text.isDigit_of_mem_writeNumber hc]
    simp
  rw [hnumber, hnumber] at htake
  exact Text.writeNumber_injective htake

end ScenarioAtlas.Naming
