import ScenarioAtlas.Proofs.NodeId
import ScenarioAtlas.Status.Reconcile

/-!
# What the identifiers of nodes refer to

The key of a scenario and a line below a file are read for what they are, and so is the identifier
of a file or of an outline above them. Neither of the two ends in the name of a file with a line.
-/

namespace ScenarioAtlas

set_option autoImplicit false

variable {path : List Char} {featureLine line : Nat}

namespace ScenarioRef

theorem cutFileLine?_append (hname : ".feature".toList <:+ path) (hline : '\n' ∉ path) :
    cutFileLine? (path ++ ':' :: Text.writeNumber line) = some (path, Text.writeNumber line) := by
  simp [cutFileLine?, NodeId.cutLine?_append, NodeId.featureStem?_isSome_iff.mpr ⟨hname, hline⟩]

theorem read?_key (hname : ".feature".toList <:+ path) (hline : '\n' ∉ path)
    (hfeature : featureLine < Text.numberBound) (hscenario : line < Text.numberBound) :
    read? (path ++ ':' :: Text.writeNumber featureLine ++ ':' :: Text.writeNumber line) =
      some (.key (.ofPath (String.ofList path) featureLine line)) := by
  have hparts : keyParts?
      (path ++ ':' :: Text.writeNumber featureLine ++ ':' :: Text.writeNumber line) =
      some (path, Text.writeNumber featureLine, Text.writeNumber line) := by
    rw [keyParts?, NodeId.cutLine?_append]
    simp [cutFileLine?_append hname hline]
  rw [read?, hparts]
  simp [Text.readNumber?_writeNumber hfeature, Text.readNumber?_writeNumber hscenario]

theorem read?_fileLine (hname : ".feature".toList <:+ path) (hline : '\n' ∉ path)
    (hscenario : line < Text.numberBound) :
    read? (path ++ ':' :: Text.writeNumber line) = some (.inFile path line) := by
  have hnofile : cutFileLine? path = none := by
    rw [cutFileLine?, NodeId.cutLine?_eq_none hname]
    rfl
  have hnokey : keyParts? (path ++ ':' :: Text.writeNumber line) = none := by
    rw [keyParts?, NodeId.cutLine?_append]
    simp only [Option.bind_eq_bind, Option.bind_some, hnofile, Option.bind_none]
  rw [read?, hnokey, cutFileLine?_append hname hline]
  simp [Text.readNumber?_writeNumber hscenario]

theorem read?_line (hscenario : line < Text.numberBound) :
    read? (':' :: Text.writeNumber line) = some (.onLine line) := by
  have hcut := NodeId.cutLine?_append [] line
  rw [List.nil_append] at hcut
  have hnofile : cutFileLine? (':' :: Text.writeNumber line) = none := by
    rw [cutFileLine?, hcut]
    rfl
  have hnokey : keyParts? (':' :: Text.writeNumber line) = none := by
    rw [keyParts?, hcut]
    rfl
  have hlast := Text.cutLast?_append (Text.colon_not_mem_writeNumber line) []
  rw [List.nil_append] at hlast
  simp [read?, hnofile, hnokey, hlast, Text.trim_writeNumber,
    Text.readNumber?_writeNumber hscenario]

end ScenarioRef

namespace FileRef

/-- The identifier of a file, or of something in it, names the file with the line of its feature. -/
theorem read?_append {rest : List Char} (hname : ".feature".toList <:+ path) (hline : '\n' ∉ path)
    (hfeature : featureLine < Text.numberBound) (hdot : '.' ∉ rest) (hrest : '\n' ∉ rest)
    (hdigit : ∀ c ∈ rest.head?, Text.isDecimalDigit c = false) :
    read? (path ++ ':' :: Text.writeNumber featureLine ++ rest) =
      some ⟨path, some featureLine⟩ := by
  obtain ⟨stem, rfl⟩ := hname
  have hnumber {c : Char} (hc : c.isDigit = false) : c ∉ Text.writeNumber featureLine :=
    Text.not_mem_writeNumber hc
  have hafter : '.' ∉ ':' :: (Text.writeNumber featureLine ++ rest) := by
    simp [hdot, hnumber (c := '.') rfl]
  have hnobreak : '\n' ∉
      stem ++ ".feature".toList ++ (':' :: (Text.writeNumber featureLine ++ rest)) := by
    simp only [List.mem_append, List.mem_cons, not_or] at hline ⊢
    exact ⟨hline, by decide, hnumber (c := '\n') rfl, hrest⟩
  have hstem : Text.beforeLast? ('.' :: "feature".toList) (stem ++ '.' :: "feature".toList ++
      ':' :: (Text.writeNumber featureLine ++ rest)) = some stem :=
    Text.beforeLast?_append (by decide) hafter stem
  have hdigits : (Text.writeNumber featureLine ++ rest).takeWhile Text.isDecimalDigit =
      Text.writeNumber featureLine := by
    rw [List.takeWhile_append_of_pos fun c hc =>
      Text.isDecimalDigit_of_isDigit (Text.isDigit_of_mem_writeNumber hc)]
    cases rest with
    | nil => simp
    | cons c rest => simp [hdigit c rfl]
  have hread : inLine? (stem ++ ".feature".toList ++ ':' :: (Text.writeNumber featureLine ++ rest)) =
      some ⟨stem ++ ".feature".toList, some featureLine⟩ := by
    unfold inLine?
    rw [show ".feature".toList = '.' :: "feature".toList from rfl, hstem]
    simp [lineAfterColon?, hdigits, Text.readNumber?_writeNumber hfeature]
  rw [List.append_assoc, List.cons_append, read?, Text.fields_eq_singleton hnobreak,
    List.findSome?_cons, hread]

theorem read?_feature (hname : ".feature".toList <:+ path) (hline : '\n' ∉ path)
    (hfeature : featureLine < Text.numberBound) :
    read? (path ++ ':' :: Text.writeNumber featureLine) = some ⟨path, some featureLine⟩ := by
  rw [← List.append_nil (path ++ _)]
  exact read?_append hname hline hfeature nofun nofun nofun

theorem read?_outline (hname : ".feature".toList <:+ path) (hline : '\n' ∉ path)
    (hfeature : featureLine < Text.numberBound) (outlineLine : Nat) :
    read? (path ++ ':' :: Text.writeNumber featureLine ++
      (":outline".toList ++ ':' :: Text.writeNumber outlineLine)) =
        some ⟨path, some featureLine⟩ := by
  have hnumber {c : Char} (hc : c.isDigit = false) : c ∉ Text.writeNumber outlineLine :=
    Text.not_mem_writeNumber hc
  refine read?_append hname hline hfeature ?_ ?_ ?_
  · simp [hnumber (c := '.') rfl]
  · simp [hnumber (c := '\n') rfl]
  · simp [Text.isDecimalDigit, Text.zeroDigits]

end FileRef

namespace Results

theorem trailingFile?_key (front : List Char) (featureLine line : Nat) :
    trailingFile? (front ++ ':' :: Text.writeNumber featureLine ++ ':' :: Text.writeNumber line) =
      none := by
  have hnone := NodeId.beforeEnd?_feature_eq_none (front ++ [':']) featureLine
  rw [List.append_assoc, List.singleton_append] at hnone
  rw [trailingFile?, NodeId.cutLine?_append]
  simp only [Option.bind_eq_bind, Option.bind_some, hnone, Option.bind_none]

theorem trailingFile?_line (line : Nat) : trailingFile? (':' :: Text.writeNumber line) = none := by
  have hcut := NodeId.cutLine?_append [] line
  rw [List.nil_append] at hcut
  rw [trailingFile?, hcut]
  rfl

end Results

end ScenarioAtlas
