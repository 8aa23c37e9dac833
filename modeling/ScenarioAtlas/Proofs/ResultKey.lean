import ScenarioAtlas.Proofs.Path
import ScenarioAtlas.Proofs.Text.Number
import ScenarioAtlas.ResultKey

/-!
# Result keys as texts

A key is written from its path and its two lines and is read from the end of its text, so the last
two colons are the ones that divide it, whatever colons the path has.
-/

namespace ScenarioAtlas

set_option autoImplicit false

theorem ResultKey.toList_text (key : ResultKey) :
    key.text.toList =
      key.path.toList ++ ':' :: Text.writeNumber key.featureLine ++
        ':' :: Text.writeNumber key.scenarioLine := by
  simp [ResultKey.text]

theorem readLine_writeNumber {line : Nat} (h : line < Text.numberBound) (id : String) :
    readLine id (Text.writeNumber line) = .ok line := by
  rw [readLine, Text.readNumber?_writeNumber h]

theorem readLine_of_readNumber? {id : String} {segment : List Char} {line : Nat}
    (h : Text.readNumber? segment = some line) : readLine id segment = .ok line := by
  rw [readLine, h]

theorem exists_of_readLine_bind {β : Type} {id : String} {segment : List Char}
    {next : Nat → Except IdError β} {result : β}
    (h : readLine id segment >>= next = .ok result) :
    ∃ line, Text.readNumber? segment = some line ∧ next line = .ok result := by
  unfold readLine at h
  split at h
  case h_1 line hread => exact ⟨line, hread, h⟩
  case h_2 => cases h

namespace ResultKey

theorem read_eq_ok_iff {id : String} {key : ResultKey} :
    read id = .ok key ↔ ∃ path feature scenario,
      id.toList = path ++ ':' :: feature ++ ':' :: scenario ∧ path ≠ [] ∧
        Text.readNumber? feature = some key.featureLine ∧
        Text.readNumber? scenario = some key.scenarioLine ∧
        key.path.toList = Path.normalize path := by
  constructor
  · intro h
    unfold read at h
    split at h
    case h_1 => cases h
    case h_2 front scenario hfront =>
      split at h
      case h_1 => cases h
      case h_2 => cases h
      case h_3 path feature hne hpath =>
        obtain ⟨featureLine, hfeature, h⟩ := exists_of_readLine_bind h
        obtain ⟨scenarioLine, hscenario, h⟩ := exists_of_readLine_bind h
        cases h
        obtain ⟨hid, -⟩ := Text.cutLast?_eq_some_iff.mp hfront
        obtain ⟨rfl, -⟩ := Text.cutLast?_eq_some_iff.mp hpath
        exact ⟨path, feature, scenario, hid, hne, hfeature, hscenario, by simp [ofPath]⟩
  · rintro ⟨path, feature, scenario, hid, hne, hfeature, hscenario, hpath⟩
    have hcolon {segment : List Char} {line : Nat}
        (hread : Text.readNumber? segment = some line) : ':' ∉ segment :=
      Text.not_mem_of_readNumber? hread (by decide) (by decide)
    obtain ⟨first, more, rfl⟩ := List.exists_cons_of_ne_nil hne
    rw [read, hid, Text.cutLast?_append (hcolon hscenario)]
    simp only [Text.cutLast?_append (hcolon hfeature), readLine_of_readNumber? hfeature,
      readLine_of_readNumber? hscenario, ofPath, String.toList_ofList, ← hpath,
      String.ofList_toList]
    rfl

theorem path_ne_nil_of_read {id : String} {key : ResultKey} (h : read id = .ok key) :
    key.path.toList ≠ [] := by
  obtain ⟨path, feature, scenario, -, hne, -, -, hpath⟩ := read_eq_ok_iff.mp h
  rw [hpath]
  exact fun hnil => hne (List.map_eq_nil_iff.mp hnil)

theorem eq_of_read_text {key own : ResultKey} (h : read own.text = .ok key)
    (hnormal : Path.normalize own.path.toList = own.path.toList) : key = own := by
  obtain ⟨path, feature, scenario, hid, -, hfeature, hscenario, hpath⟩ := read_eq_ok_iff.mp h
  have hcolon {segment : List Char} {line : Nat}
      (hread : Text.readNumber? segment = some line) : ':' ∉ segment :=
    Text.not_mem_of_readNumber? hread (by decide) (by decide)
  have hcut := Text.cutLast?_append (hcolon hscenario) (path ++ ':' :: feature)
  rw [← hid, toList_text, Text.cutLast?_append (Text.colon_not_mem_writeNumber _)] at hcut
  obtain ⟨hfront, rfl⟩ := Prod.mk.inj (Option.some.inj hcut)
  have hcutFront := Text.cutLast?_append (hcolon hfeature) path
  rw [← hfront, Text.cutLast?_append (Text.colon_not_mem_writeNumber _)] at hcutFront
  obtain ⟨rfl, rfl⟩ := Prod.mk.inj (Option.some.inj hcutFront)
  rw [hnormal] at hpath
  obtain ⟨keyPath, keyFeature, keyScenario⟩ := key
  obtain rfl := String.toList_inj.mp hpath
  obtain rfl := Text.eq_of_readNumber?_writeNumber hfeature
  obtain rfl := Text.eq_of_readNumber?_writeNumber hscenario
  rfl

end ResultKey

end ScenarioAtlas
