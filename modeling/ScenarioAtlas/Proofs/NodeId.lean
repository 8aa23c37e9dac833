import ScenarioAtlas.NodeId
import ScenarioAtlas.Proofs.ResultKey

/-!
# Line numbers at the end of identifiers

An identifier with a line number behind its last colon is cut there, and what is in front of it is
told to be the path of a feature file by its end.
-/

namespace ScenarioAtlas

set_option autoImplicit false

namespace NodeId

theorem toList_lineSegment (line : Nat) :
    (lineSegment line).toList = ':' :: Text.writeNumber line := by
  simp [lineSegment]

theorem cutLine?_append (front : List Char) (line : Nat) :
    cutLine? (front ++ ':' :: Text.writeNumber line) = some (front, Text.writeNumber line) := by
  have hcut := Text.cutLast?_append (Text.colon_not_mem_writeNumber line) front
  simp [cutLine?, hcut, Text.isDigitRun_writeNumber]

theorem path_eq_of_text_eq {path other : String} {line otherLine : Nat}
    (h : (feature path (some line)).text = (feature other (some otherLine)).text) :
    path = other := by
  have hcut := congrArg (cutLine? ·.toList) h
  simp only [text, String.toList_append, toList_lineSegment, cutLine?_append, Option.some.injEq,
    Prod.mk.injEq] at hcut
  exact String.toList_inj.mp hcut.1

theorem cutLine?_eq_some_iff {s front digits : List Char} :
    cutLine? s = some (front, digits) ↔
      s = front ++ ':' :: digits ∧ Text.isDigitRun digits = true := by
  rw [cutLine?, Option.filter_eq_some_iff, Text.cutLast?_eq_some_iff]
  constructor
  · rintro ⟨⟨hs, -⟩, hdigits⟩
    exact ⟨hs, hdigits⟩
  · rintro ⟨hs, hdigits⟩
    exact ⟨⟨hs, Text.not_mem_of_isDigitRun hdigits (by decide)⟩, hdigits⟩

theorem plain_of_mem_feature {c : Char} (h : c ∈ ".feature".toList) :
    Path.isSeparator c = false ∧ c ≠ ':' := by
  have hall : ".feature".toList.all (fun c => !Path.isSeparator c && c != ':') = true := by decide
  simpa using List.all_eq_true.mp hall c h

theorem cutLine?_eq_none {path : List Char} (hname : ".feature".toList <:+ path) :
    cutLine? path = none := by
  rw [Option.eq_none_iff_forall_ne_some]
  rintro ⟨front, digits⟩ hcut
  obtain ⟨rfl, hdigits⟩ := cutLine?_eq_some_iff.mp hcut
  rw [List.append_cons] at hname
  exact Text.not_suffix_of_isDigitRun hdigits rfl (by decide) _ hname

theorem featureStem?_isSome_iff {path : List Char} :
    (featureStem? path).isSome = true ↔ ".feature".toList <:+ path ∧ '\n' ∉ path := by
  simp only [featureStem?, Option.isSome_filter, Option.any_eq_true, Text.beforeEnd?_eq_some_iff]
  constructor
  · rintro ⟨stem, rfl, hbreak⟩
    refine ⟨List.suffix_append _ _, ?_⟩
    simpa using hbreak
  · rintro ⟨⟨stem, rfl⟩, hbreak⟩
    refine ⟨stem, rfl, ?_⟩
    simpa using hbreak

theorem beforeEnd?_feature_eq_none (front : List Char) (line : Nat) :
    Text.beforeEnd? ".feature".toList (front ++ Text.writeNumber line) = none := by
  exact Text.beforeEnd?_eq_none
    (Text.not_suffix_of_isDigitRun (Text.isDigitRun_writeNumber line) rfl (by decide) front)

end NodeId

end ScenarioAtlas
