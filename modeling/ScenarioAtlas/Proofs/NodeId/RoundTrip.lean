import ScenarioAtlas.Proofs.NodeId

/-!
# Identifiers read back

Nine forms of identifiers share the texts between them. Four of them are told by how a text starts,
two are words of their own, and the three forms with the path of a feature file are told by what
stands behind the path: since a path ends in `.feature`, the line numbers and the word `outline`
that follow it cannot be taken for a part of it. So every identifier that can be read is read back
from its own text. Nothing is claimed of a path that starts as one of the other forms does.
-/

namespace ScenarioAtlas.NodeId

set_option autoImplicit false

/-- How the identifiers start that are told by their start. -/
def openings : List String := ["tag:", "file:", "kind:", ":"]

/-- A path that an identifier may start with: that of a feature file that has a name. -/
structure IsFilePath (path : String) : Prop where
  named : ∃ stem, stem ≠ [] ∧ path.toList = stem ++ ".feature".toList
  noBreak : '\n' ∉ path.toList
  noOpening : ∀ opening ∈ openings, ¬ opening.toList <+: path.toList

/-- An identifier whose parts can be told apart in its text. -/
def Readable : NodeId → Prop
  | feature path line => IsFilePath path ∧ ∀ n ∈ line, n < Text.numberBound
  | outline path featureLine line =>
    IsFilePath path ∧ featureLine < Text.numberBound ∧ line < Text.numberBound
  | scenarioOn line => line < Text.numberBound
  | scenario key =>
    IsFilePath key.path ∧ '\\' ∉ key.path.toList ∧
      key.featureLine < Text.numberBound ∧ key.scenarioLine < Text.numberBound
  | tagGroup _ | untagged | fileGroup _ | kindGroup _ | all => True

section Parts

variable {s path featureLine line : List Char}

theorem isFeaturePath_iff :
    isFeaturePath path = true ↔
      (∃ stem, stem ≠ [] ∧ path = stem ++ ".feature".toList) ∧ '\n' ∉ path := by
  simp only [isFeaturePath, featureStem?, Option.any_eq_true, Option.filter_eq_some_iff,
    Text.beforeEnd?_eq_some_iff]
  constructor
  · rintro ⟨stem, ⟨rfl, hbreak⟩, hne⟩
    refine ⟨⟨stem, by simpa using hne, rfl⟩, ?_⟩
    simpa using hbreak
  · rintro ⟨⟨stem, hne, rfl⟩, hbreak⟩
    refine ⟨stem, ⟨rfl, ?_⟩, by simpa using hne⟩
    simpa using hbreak

theorem suffix_of_isFeaturePath (h : isFeaturePath path = true) : ".feature".toList <:+ path := by
  obtain ⟨⟨stem, -, rfl⟩, -⟩ := isFeaturePath_iff.mp h
  exact List.suffix_append stem _

theorem outlineParts?_eq_some_iff :
    outlineParts? s = some (path, featureLine, line) ↔
      s = path ++ ':' :: featureLine ++ ":outline".toList ++ ':' :: line ∧
        isFeaturePath path = true ∧ Text.isDigitRun featureLine = true ∧
          Text.isDigitRun line = true := by
  simp only [outlineParts?, Option.bind_eq_bind, Option.bind_eq_some_iff, Prod.exists,
    cutLine?_eq_some_iff, Text.beforeEnd?_eq_some_iff, Option.ite_none_right_eq_some,
    Option.some.injEq, Prod.mk.injEq]
  constructor
  · rintro ⟨_, _, ⟨rfl, hline⟩, _, rfl, _, _, ⟨rfl, hfeature⟩, hname, rfl, rfl, rfl⟩
    exact ⟨rfl, hname, hfeature, hline⟩
  · rintro ⟨rfl, hname, hfeature, hline⟩
    exact ⟨_, line, ⟨rfl, hline⟩, _, rfl, path, featureLine, ⟨rfl, hfeature⟩, hname, rfl, rfl, rfl⟩

theorem scenarioParts?_eq_some_iff :
    scenarioParts? s = some (path, featureLine, line) ↔
      s = path ++ ':' :: featureLine ++ ':' :: line ∧
        isFeaturePath path = true ∧ Text.isDigitRun featureLine = true ∧
          Text.isDigitRun line = true := by
  simp only [scenarioParts?, Option.bind_eq_bind, Option.bind_eq_some_iff, Prod.exists,
    cutLine?_eq_some_iff, Option.ite_none_right_eq_some, Option.some.injEq, Prod.mk.injEq]
  constructor
  · rintro ⟨_, _, ⟨rfl, hline⟩, _, _, ⟨rfl, hfeature⟩, hname, rfl, rfl, rfl⟩
    exact ⟨rfl, hname, hfeature, hline⟩
  · rintro ⟨rfl, hname, hfeature, hline⟩
    exact ⟨_, line, ⟨rfl, hline⟩, path, featureLine, ⟨rfl, hfeature⟩, hname, rfl, rfl, rfl⟩

theorem featureParts?_eq_some_iff {line : Option (List Char)} :
    featureParts? s = some (path, line) ↔
      isFeaturePath path = true ∧
        match line with
        | none => s = path
        | some line => s = path ++ ':' :: line ∧ Text.isDigitRun line = true := by
  unfold featureParts?
  split
  case isTrue hname =>
    constructor
    · intro h
      cases h
      exact ⟨hname, rfl⟩
    · rintro ⟨hpath, hs⟩
      cases line with
      | none => rw [hs]
      | some line =>
        obtain ⟨rfl, hdigits⟩ := hs
        have hends := suffix_of_isFeaturePath hname
        rw [List.append_cons] at hends
        exact absurd hends (Text.not_suffix_of_isDigitRun hdigits rfl (by decide) _)
  case isFalse hname =>
    simp only [Option.bind_eq_some_iff, Prod.exists, cutLine?_eq_some_iff,
      Option.ite_none_right_eq_some, Option.some.injEq, Prod.mk.injEq]
    constructor
    · rintro ⟨_, _, hcut, hfront, rfl, rfl⟩
      exact ⟨hfront, hcut⟩
    · rintro ⟨hpath, hs⟩
      cases line with
      | none => exact absurd (hs ▸ hpath) hname
      | some line => exact ⟨path, line, hs, hpath, rfl, rfl⟩

end Parts

theorem beforeEnd?_outline_eq_none {path : List Char} (hname : ".feature".toList <:+ path) :
    Text.beforeEnd? ":outline".toList path = none := by
  refine Text.beforeEnd?_eq_none fun houtline => ?_
  have hsame := List.suffix_of_suffix_length_le hname houtline (by decide)
  exact absurd hsame (by decide)

theorem beforeEnd?_outline_eq_none_of_line (front : List Char) (line : Nat) :
    Text.beforeEnd? ":outline".toList (front ++ ':' :: Text.writeNumber line) = none := by
  rw [List.append_cons]
  exact Text.beforeEnd?_eq_none
    (Text.not_suffix_of_isDigitRun (Text.isDigitRun_writeNumber line) rfl (by decide) _)

section Reading

variable {id : NodeId} {path : String}

theorem IsFilePath.isFeaturePath (h : IsFilePath path) : isFeaturePath path.toList = true :=
  isFeaturePath_iff.mpr ⟨h.named, h.noBreak⟩

theorem read_eq_readPath {text : String} (hall : text ≠ "all") (huntagged : text ≠ "untagged")
    (hopening : ∀ opening ∈ openings, ¬ opening.toList <+: text.toList) :
    read text = readPath text := by
  unfold read
  split
  case h_1 tag heq => exact absurd ⟨tag, heq.symm⟩ (hopening "tag:" (by simp [openings]))
  case h_2 file heq => exact absurd ⟨file, heq.symm⟩ (hopening "file:" (by simp [openings]))
  case h_3 kind heq => exact absurd ⟨kind, heq.symm⟩ (hopening "kind:" (by simp [openings]))
  case h_4 line heq => exact absurd ⟨line, heq.symm⟩ (hopening ":" (by simp [openings]))
  case h_5 => rw [if_neg hall, if_neg huntagged]

theorem length_of_mem_openings {opening : String} (h : opening ∈ openings) :
    opening.toList.length ≤ 5 := by
  revert opening
  decide

theorem slash_not_mem_of_mem_openings {opening : String} (h : opening ∈ openings) :
    '/' ∉ opening.toList := by
  revert opening
  decide

theorem IsFilePath.read_append (h : IsFilePath path) {text : String} {rest : List Char}
    (htext : text.toList = path.toList ++ rest) : read text = readPath text := by
  obtain ⟨stem, hstem, hpath⟩ := h.named
  have hdot : '.' ∈ text.toList := by simp [htext, hpath]
  have hother {word : String} (hword : '.' ∉ word.toList) : text ≠ word := by
    rintro rfl
    exact hword hdot
  refine read_eq_readPath (hother (by decide)) (hother (by decide)) ?_
  intro opening hopening hstart
  have hlength : opening.toList.length ≤ path.toList.length := by
    have hshort := length_of_mem_openings hopening
    have hname : ".feature".toList.length = 8 := rfl
    rw [hpath, List.length_append]
    omega
  rw [htext] at hstart
  exact h.noOpening opening hopening
    (List.prefix_of_prefix_length_le hstart (List.prefix_append _ _) hlength)

theorem readPath_of_feature (hpath : isFeaturePath path.toList = true) :
    readPath path = .ok (feature path none) := by
  have hcut := cutLine?_eq_none (suffix_of_isFeaturePath hpath)
  have houtline : outlineParts? path.toList = none := by simp [outlineParts?, hcut]
  have hscenario : scenarioParts? path.toList = none := by simp [scenarioParts?, hcut]
  have hfeature : featureParts? path.toList = some (path.toList, none) :=
    featureParts?_eq_some_iff.mpr ⟨hpath, rfl⟩
  rw [readPath, houtline, hscenario, hfeature]
  exact congrArg (fun path => Except.ok (feature path none)) String.ofList_toList

theorem readPath_of_featureLine (hpath : isFeaturePath path.toList = true) {line : Nat}
    (hline : line < Text.numberBound) :
    readPath (path ++ lineSegment line) = .ok (feature path (some line)) := by
  have hname := suffix_of_isFeaturePath hpath
  have htext : (path ++ lineSegment line).toList = path.toList ++ ':' :: Text.writeNumber line := by
    simp [toList_lineSegment]
  have houtline : outlineParts? (path ++ lineSegment line).toList = none := by
    rw [htext, outlineParts?, cutLine?_append]
    simp only [Option.bind_eq_bind, Option.bind_some, beforeEnd?_outline_eq_none hname,
      Option.bind_none]
  have hscenario : scenarioParts? (path ++ lineSegment line).toList = none := by
    rw [htext, scenarioParts?, cutLine?_append]
    simp [cutLine?_eq_none hname]
  have hfeature : featureParts? (path ++ lineSegment line).toList =
      some (path.toList, some (Text.writeNumber line)) :=
    featureParts?_eq_some_iff.mpr ⟨hpath, htext, Text.isDigitRun_writeNumber line⟩
  rw [readPath, houtline, hscenario, hfeature]
  simp [readLine_writeNumber hline]

theorem readPath_of_outline (hpath : isFeaturePath path.toList = true) {featureLine line : Nat}
    (hfeature : featureLine < Text.numberBound) (hline : line < Text.numberBound) :
    readPath (outline path featureLine line).text = .ok (outline path featureLine line) := by
  have hparts : outlineParts? (outline path featureLine line).text.toList =
      some (path.toList, Text.writeNumber featureLine, Text.writeNumber line) := by
    refine outlineParts?_eq_some_iff.mpr ⟨?_, hpath, Text.isDigitRun_writeNumber featureLine,
      Text.isDigitRun_writeNumber line⟩
    simp [text, toList_lineSegment]
  rw [readPath, hparts]
  simp only [readLine_writeNumber hfeature, readLine_writeNumber hline, String.ofList_toList]
  rfl

theorem readPath_of_key {key : ResultKey} (hpath : isFeaturePath key.path.toList = true)
    (hslash : '\\' ∉ key.path.toList) (hfeature : key.featureLine < Text.numberBound)
    (hline : key.scenarioLine < Text.numberBound) : readPath key.text = .ok (scenario key) := by
  have houtline : outlineParts? key.text.toList = none := by
    rw [ResultKey.toList_text, outlineParts?, cutLine?_append]
    simp only [Option.bind_eq_bind, Option.bind_some, beforeEnd?_outline_eq_none_of_line,
      Option.bind_none]
  have hparts : scenarioParts? key.text.toList =
      some (key.path.toList, Text.writeNumber key.featureLine,
        Text.writeNumber key.scenarioLine) :=
    scenarioParts?_eq_some_iff.mpr ⟨key.toList_text, hpath,
      Text.isDigitRun_writeNumber key.featureLine, Text.isDigitRun_writeNumber key.scenarioLine⟩
  rw [readPath, houtline, hparts]
  simp only [readLine_writeNumber hfeature, readLine_writeNumber hline, ResultKey.ofPath,
    Path.normalize_eq_self hslash, String.ofList_toList]
  rfl

/-- An identifier whose parts can be told apart is read back from its text. -/
theorem Readable.read_text {id : NodeId} (h : id.Readable) : read id.text = .ok id := by
  cases id with
  | feature path line =>
    obtain ⟨hpath, hline⟩ := h
    cases line with
    | none =>
      exact (hpath.read_append (List.append_nil _).symm).trans
        (readPath_of_feature hpath.isFeaturePath)
    | some line =>
      exact (hpath.read_append (String.toList_append)).trans
        (readPath_of_featureLine hpath.isFeaturePath (hline line rfl))
  | outline path featureLine line =>
    obtain ⟨hpath, hfeature, hline⟩ := h
    have htext : (outline path featureLine line).text.toList =
        path.toList ++ (lineSegment featureLine ++ ":outline" ++ lineSegment line).toList := by
      simp [text]
    exact (hpath.read_append htext).trans
      (readPath_of_outline hpath.isFeaturePath hfeature hline)
  | scenario key =>
    obtain ⟨hpath, hslash, hfeature, hline⟩ := h
    have htext : key.text.toList = key.path.toList ++
        (lineSegment key.featureLine ++ lineSegment key.scenarioLine).toList := by
      simp [key.toList_text, toList_lineSegment]
    exact (hpath.read_append htext).trans
      (readPath_of_key hpath.isFeaturePath hslash hfeature hline)
  | scenarioOn line =>
    have htext : (scenarioOn line).text.toList = ':' :: Text.writeNumber line :=
      toList_lineSegment line
    rw [read, htext]
    simp only [readLine_writeNumber h]
    rfl
  | tagGroup tag =>
    have htext : (tagGroup tag).text.toList = "tag:".toList ++ tag.toList := String.toList_append
    rw [read, htext]
    exact congrArg (fun tag => Except.ok (tagGroup tag)) String.ofList_toList
  | untagged => rfl
  | fileGroup path =>
    have htext : (fileGroup path).text.toList = "file:".toList ++ path.toList :=
      String.toList_append
    rw [read, htext]
    exact congrArg (fun path => Except.ok (fileGroup path)) String.ofList_toList
  | kindGroup kind => cases kind <;> rfl
  | all => rfl

theorem Readable.text_inj {id other : NodeId} (h : id.Readable) (hother : other.Readable)
    (htext : id.text = other.text) : id = other := by
  have hread := h.read_text
  rw [htext, hother.read_text] at hread
  exact (Except.ok.inj hread).symm

theorem isFilePath_of_start {text : String} {path : List Char}
    (hopening : ∀ opening ∈ openings, ¬ opening.toList <+: text.toList)
    (hpath : isFeaturePath path = true) (hstart : path <+: text.toList) :
    IsFilePath (String.ofList path) := by
  obtain ⟨hname, hbreak⟩ := isFeaturePath_iff.mp hpath
  refine ⟨?_, ?_, fun opening hmem hstarts => hopening opening hmem ?_⟩
  · rwa [String.toList_ofList]
  · rwa [String.toList_ofList]
  · rw [String.toList_ofList] at hstarts
    exact hstarts.trans hstart

theorem IsFilePath.normalize (h : IsFilePath path) :
    IsFilePath (String.ofList (Path.normalize path.toList)) := by
  obtain ⟨stem, hstem, hpath⟩ := h.named
  constructor
  · refine ⟨Path.normalize stem, by simpa [Path.normalize] using hstem, ?_⟩
    rw [String.toList_ofList, hpath, Path.normalize, List.map_append]
    rfl
  · rw [String.toList_ofList]
    exact fun hmem => h.noBreak (Path.mem_normalize (by decide) hmem)
  · intro opening hopening hstart
    rw [String.toList_ofList] at hstart
    exact h.noOpening opening hopening
      (Path.prefix_of_prefix_normalize (slash_not_mem_of_mem_openings hopening) hstart)

theorem readable_of_readPath {text : String}
    (hopening : ∀ opening ∈ openings, ¬ opening.toList <+: text.toList)
    (h : readPath text = .ok id) : id.Readable := by
  unfold readPath at h
  split at h
  case h_1 hparts =>
    obtain ⟨htext, hpath, -, -⟩ := outlineParts?_eq_some_iff.mp hparts
    obtain ⟨featureLine, hfeature, h⟩ := exists_of_readLine_bind h
    obtain ⟨line, hline, h⟩ := exists_of_readLine_bind h
    cases h
    refine ⟨isFilePath_of_start hopening hpath ?_, Text.readNumber?_lt hfeature,
      Text.readNumber?_lt hline⟩
    simp [htext]
  case h_2 hparts =>
    obtain ⟨htext, hpath, -, -⟩ := scenarioParts?_eq_some_iff.mp hparts
    obtain ⟨featureLine, hfeature, h⟩ := exists_of_readLine_bind h
    obtain ⟨line, hline, h⟩ := exists_of_readLine_bind h
    cases h
    have hfile := isFilePath_of_start hopening hpath (by simp [htext])
    refine ⟨hfile.normalize, ?_, Text.readNumber?_lt hfeature, Text.readNumber?_lt hline⟩
    rw [ResultKey.ofPath, String.toList_ofList]
    exact Path.not_mem_normalize _
  case h_3 hparts =>
    obtain ⟨hpath, htext⟩ := featureParts?_eq_some_iff.mp hparts
    cases h
    refine ⟨isFilePath_of_start hopening hpath (htext ▸ List.prefix_rfl), ?_⟩
    intro n hn
    exact absurd hn (Option.not_mem_none n)
  case h_4 hparts =>
    obtain ⟨hpath, htext, -⟩ := featureParts?_eq_some_iff.mp hparts
    obtain ⟨line, hline, h⟩ := exists_of_readLine_bind h
    cases h
    refine ⟨isFilePath_of_start hopening hpath (by simp [htext]), ?_⟩
    intro n hn
    exact Option.mem_some.mp hn ▸ Text.readNumber?_lt hline
  case h_5 => cases h

/-- The parts of an identifier that could be read can be told apart in its own text. -/
theorem readable_of_read {text : String} (h : read text = .ok id) : id.Readable := by
  unfold read at h
  split at h
  case h_1 => cases h; trivial
  case h_2 => cases h; trivial
  case h_3 =>
    split at h
    case isTrue => cases h; trivial
    case isFalse =>
      split at h
      case isTrue => cases h; trivial
      case isFalse => cases h
  case h_4 =>
    obtain ⟨line, hline, h⟩ := exists_of_readLine_bind h
    cases h
    exact Text.readNumber?_lt hline
  case h_5 htag hfile hkind hline =>
    have hopening : ∀ opening ∈ openings, ¬ opening.toList <+: text.toList := by
      rintro opening hmem ⟨rest, hrest⟩
      simp only [openings, List.mem_cons, List.not_mem_nil, or_false] at hmem
      rcases hmem with rfl | rfl | rfl | rfl
      · exact htag rest hrest.symm
      · exact hfile rest hrest.symm
      · exact hkind rest hrest.symm
      · exact hline rest hrest.symm
    split at h
    case isTrue => cases h; trivial
    case isFalse =>
      split at h
      case isTrue => cases h; trivial
      case isFalse => exact readable_of_readPath hopening h

end Reading

/-- Identifiers are not lost in their texts. What could be read is read again from its own text, and
so is every identifier whose parts can be told apart there; two of these never share a text. -/
theorem text_lossless :
    (∀ text id, read text = .ok id → read id.text = .ok id) ∧
    (∀ id : NodeId, id.Readable → read id.text = .ok id) ∧
    ∀ a b : NodeId, a.Readable → b.Readable → a.text = b.text → a = b := by
  refine ⟨fun text id h => (readable_of_read h).read_text, fun id h => h.read_text, ?_⟩
  intro a b ha hb hsame
  have hread := ha.read_text
  rw [hsame, hb.read_text] at hread
  exact (Except.ok.inj hread).symm

theorem text_lossless_of_inner_names :
    let path := "a:1/b.feature:2:outline:3.feature"
    let file : NodeId := feature path (some 4)
    let sketch : NodeId := outline path 4 5
    let single : NodeId := scenario ⟨"C:/ws/a.feature", 7, 9⟩
    read "C:\\ws\\a.feature:007:9" = .ok single ∧ read single.text = .ok single ∧
      read sketch.text = .ok sketch ∧ file.text ≠ sketch.text := by
  intro path file sketch single
  have hpath : IsFilePath path :=
    ⟨⟨"a:1/b.feature:2:outline:3".toList, by decide, by decide⟩, by decide, by decide⟩
  have hfile : file.Readable := ⟨hpath, by decide⟩
  have hsketch : sketch.Readable := ⟨hpath, by decide, by decide⟩
  have hread : read "C:\\ws\\a.feature:007:9" = .ok single := by decide +kernel
  refine ⟨hread, text_lossless.1 _ _ hread, text_lossless.2.1 sketch hsketch, fun hsame => ?_⟩
  exact NodeId.noConfusion (text_lossless.2.2 file sketch hfile hsketch hsame)

end ScenarioAtlas.NodeId
