import ScenarioAtlas.Proofs.NodeId.RoundTrip
import ScenarioAtlas.Status.Reconcile

/-!
# The three readers of result keys

A result key is read as such, as the identifier of a node and as what the identifier of a scenario
refers to. The first reader only asks for two line numbers behind the last two colons, the other two
ask for the path of a feature file in front of them. So whatever is the key of a scenario to the
reader of nodes is the same key to the other two; the converse is not claimed, since a key may have
any path. What is written for a key is read as that key, colons in its path or not.
-/

namespace ScenarioAtlas

set_option autoImplicit false

/-- A key that can be told from its text: its path is there and written with `/`, and its lines can
be read as numbers. -/
structure ResultKey.IsReadable (key : ResultKey) : Prop where
  named : key.path.toList ≠ []
  noBackslash : '\\' ∉ key.path.toList
  featureLine : key.featureLine < Text.numberBound
  scenarioLine : key.scenarioLine < Text.numberBound

/-- The parts of a text that make up a key: the path of a feature file and the digits of two lines. -/
structure ResultKey.IsSpelledBy (key : ResultKey) (path feature scenario : List Char) : Prop where
  featureFile : NodeId.isFeaturePath path = true
  featureDigits : Text.isDigitRun feature = true
  scenarioDigits : Text.isDigitRun scenario = true
  featureLine : Text.readNumber? feature = some key.featureLine
  scenarioLine : Text.readNumber? scenario = some key.scenarioLine
  normal : key.path.toList = Path.normalize path

section Spelled

variable {id : String} {key : ResultKey} {path feature scenario : List Char}

theorem NodeId.readPath_of_read (h : NodeId.read id = .ok (.scenario key)) :
    NodeId.readPath id = .ok (.scenario key) := by
  unfold NodeId.read at h
  split at h
  case h_1 => cases h
  case h_2 => cases h
  case h_3 =>
    split at h
    case isTrue => cases h
    case isFalse => split at h <;> cases h
  case h_4 =>
    obtain ⟨line, -, h⟩ := exists_of_readLine_bind h
    cases h
  case h_5 =>
    split at h
    case isTrue => cases h
    case isFalse =>
      split at h
      case isTrue => cases h
      case isFalse => exact h

theorem NodeId.isSpelledBy_of_read (h : NodeId.read id = .ok (.scenario key)) :
    ∃ path feature scenario, id.toList = path ++ ':' :: feature ++ ':' :: scenario ∧
      key.IsSpelledBy path feature scenario := by
  have hpath := NodeId.readPath_of_read h
  unfold NodeId.readPath at hpath
  split at hpath
  case h_1 =>
    obtain ⟨featureLine, -, hpath⟩ := exists_of_readLine_bind hpath
    obtain ⟨line, -, hpath⟩ := exists_of_readLine_bind hpath
    cases hpath
  case h_2 path feature scenario _ hparts =>
    obtain ⟨hid, hfile, hfeatureDigits, hscenarioDigits⟩ :=
      NodeId.scenarioParts?_eq_some_iff.mp hparts
    obtain ⟨featureLine, hfeature, hpath⟩ := exists_of_readLine_bind hpath
    obtain ⟨line, hline, hpath⟩ := exists_of_readLine_bind hpath
    cases hpath
    refine ⟨path, feature, scenario, hid, hfile, hfeatureDigits, hscenarioDigits, hfeature, hline, ?_⟩
    simp [ResultKey.ofPath]
  case h_3 => cases hpath
  case h_4 =>
    obtain ⟨line, -, hpath⟩ := exists_of_readLine_bind hpath
    cases hpath
  case h_5 => cases hpath

theorem ResultKey.IsSpelledBy.read (h : key.IsSpelledBy path feature scenario)
    (hid : id.toList = path ++ ':' :: feature ++ ':' :: scenario) : read id = .ok key := by
  obtain ⟨⟨stem, hstem, rfl⟩, -⟩ := NodeId.isFeaturePath_iff.mp h.featureFile
  exact read_eq_ok_iff.mpr ⟨_, feature, scenario, hid, by simp [hstem], h.featureLine,
    h.scenarioLine, h.normal⟩

theorem ResultKey.IsSpelledBy.reference (h : key.IsSpelledBy path feature scenario)
    (hid : id.toList = path ++ ':' :: feature ++ ':' :: scenario) :
    ScenarioRef.read? id.toList = some (.key key) := by
  have hstem : (NodeId.featureStem? path).isSome = true :=
    NodeId.featureStem?_isSome_iff.mpr
      ⟨NodeId.suffix_of_isFeaturePath h.featureFile, (NodeId.isFeaturePath_iff.mp h.featureFile).2⟩
  have hline : NodeId.cutLine? id.toList = some (path ++ ':' :: feature, scenario) :=
    NodeId.cutLine?_eq_some_iff.mpr ⟨hid, h.scenarioDigits⟩
  have hfile : ScenarioRef.cutFileLine? (path ++ ':' :: feature) = some (path, feature) :=
    Option.filter_eq_some_iff.mpr
      ⟨NodeId.cutLine?_eq_some_iff.mpr ⟨rfl, h.featureDigits⟩, hstem⟩
  have hparts : ScenarioRef.keyParts? id.toList = some (path, feature, scenario) := by
    simp [ScenarioRef.keyParts?, hline, hfile]
  have hkey : ResultKey.ofPath (String.ofList path) key.featureLine key.scenarioLine = key := by
    rw [ResultKey.ofPath, String.toList_ofList, ← h.normal, String.ofList_toList]
  rw [ScenarioRef.read?, hparts]
  simp [h.featureLine, h.scenarioLine, hkey]

end Spelled

theorem ResultKey.IsReadable.read_text {key : ResultKey} (h : key.IsReadable) :
    read key.text = .ok key :=
  read_eq_ok_iff.mpr ⟨key.path.toList, Text.writeNumber key.featureLine,
    Text.writeNumber key.scenarioLine, key.toList_text, h.named,
    Text.readNumber?_writeNumber h.featureLine, Text.readNumber?_writeNumber h.scenarioLine,
    (Path.normalize_eq_self h.noBackslash).symm⟩

/-- The three readers agree. What is read as the identifier of a scenario with a key is read as that
key, and refers to it; a key that can be told from its text is read back from there, so that no two
such keys share a text. -/
theorem ResultKey.readers_agree :
    (∀ id key, NodeId.read id = .ok (.scenario key) →
      ResultKey.read id = .ok key ∧ ScenarioRef.read? id.toList = some (.key key)) ∧
    (∀ key : ResultKey, key.IsReadable → ResultKey.read key.text = .ok key) ∧
    ∀ key other : ResultKey, key.IsReadable → other.IsReadable → key.text = other.text →
      key = other := by
  refine ⟨fun id key h => ?_, fun key h => h.read_text, fun key other h hother hsame => ?_⟩
  · obtain ⟨path, feature, scenario, hid, hspelled⟩ := NodeId.isSpelledBy_of_read h
    exact ⟨hspelled.read hid, hspelled.reference hid⟩
  · have hread := h.read_text
    rw [hsame, hother.read_text] at hread
    exact (Except.ok.inj hread).symm

/-- A path with a drive letter, with a line number inside and with the ending of a feature file
twice. -/
theorem ResultKey.readers_agree_on_drive :
    let key : ResultKey := ⟨"C:/a.feature:1:2/b.feature", 7, 9⟩
    let other : ResultKey := ⟨"C:/a.feature", 1, 2⟩
    NodeId.read "C:\\a.feature:1:2\\b.feature:007:9" = .ok (.scenario key) ∧
      ResultKey.read "C:\\a.feature:1:2\\b.feature:007:9" = .ok key ∧
      ScenarioRef.read? "C:\\a.feature:1:2\\b.feature:007:9".toList = some (.key key) ∧
      ResultKey.read key.text = .ok key ∧ key.text ≠ other.text := by
  intro key other
  have hread : NodeId.read "C:\\a.feature:1:2\\b.feature:007:9" = .ok (.scenario key) := by
    decide +kernel
  have hkey : key.IsReadable := ⟨by decide, by decide, by decide, by decide⟩
  have hother : other.IsReadable := ⟨by decide, by decide, by decide, by decide⟩
  obtain ⟨hown, hreference⟩ := readers_agree.1 _ _ hread
  refine ⟨hread, hown, hreference, readers_agree.2.1 key hkey, fun hsame => ?_⟩
  exact absurd (readers_agree.2.2 key other hkey hother hsame) (by decide)

end ScenarioAtlas
